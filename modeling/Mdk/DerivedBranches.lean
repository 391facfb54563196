/-
The candidate graph is the least one closed under its rules.

A branch is supplied, or a commit of the batch derives it: from nothing, if it is a
root, or from the branch it names as its parent.  `materialize_candidate_graph` finds
the derivable branches in whatever order their commits allow.

Main result:
* `graph_is_least_fixpoint` — **the candidates are the supplied branches and the
  derivable ones**, each with the commits and proposals of its derivation, as long as
  commits have branch ids of their own;
* `Sample.first_supplied_is_replaced` — of two branches supplied under one id, the
  later is the candidate.
-/
import Mdk.Accounting

open Std (ExtTreeMap ExtTreeSet)
open Comparison List

namespace Mdk

/-- A branch, the commits it is made of and the proposals they consume. -/
structure DerivedBranch where
  candidate : BranchCandidate
  commitPath : List String
  consumedProposalIds : ExtTreeSet String

namespace DerivedBranch

def ofCandidate (candidate : BranchCandidate) : DerivedBranch := ⟨candidate, [], ∅⟩

def ofMaterialized (m : MaterializedCandidate) : DerivedBranch :=
  ⟨m.branch, m.commitMessageIds, .ofList m.consumedProposalIds⟩

/-- The branch of the commit `m` after the commits and proposals before it. -/
def ofCommit (m : PeeledMessage) (edge : CommitEdge) (forkEpoch : UInt64)
    (path : List String) (consumed : ExtTreeSet String) : DerivedBranch where
  candidate :=
    { id := edge.branchId, forkEpoch := forkEpoch, tipEpoch := edge.resultingEpoch
      tipPriority := edge.tipPriority, tipCommitter := m.sender, tipDigest := edge.tipDigest
      appWitnesses := [] }
  commitPath := path ++ [m.messageId]
  consumedProposalIds := consumed.insertMany edge.consumedProposalIds

end DerivedBranch

open DerivedBranch

/-- A commit of the batch within anchor and horizon that leads forward. -/
structure Applicable (input : CanonicalizationInput) (messages : List PeeledMessage)
    (m : PeeledMessage) (edge : CommitEdge) : Prop where
  pending : m ∈ messages
  commit : m.commit? = some edge
  anchored : input.state.retainedAnchorEpoch ≤ edge.forkEpoch
  inHorizon : input.state.currentTipEpoch.saturatingSub edge.forkEpoch ≤
    input.policy.convergence.maxRewindCommits
  advances : m.sourceEpoch < edge.resultingEpoch

/-- The branch supplied last under its id. -/
def LastOf (supplied : List DerivedBranch) (b : DerivedBranch) : Prop :=
  supplied.reverse.find? (fun b' => b'.candidate.id == b.candidate.id) = some b

inductive Derivable (input : CanonicalizationInput) (messages : List PeeledMessage)
    (supplied : List DerivedBranch) : DerivedBranch → Prop
  | supplied {b} : LastOf supplied b → Derivable input messages supplied b
  | root {m edge} : Applicable input messages m edge → edge.parentBranchId = none →
      m.sourceEpoch = edge.forkEpoch →
      Derivable input messages supplied (ofCommit m edge edge.forkEpoch [] ∅)
  | child {m edge parent} : Applicable input messages m edge →
      Derivable input messages supplied parent →
      edge.parentBranchId = some parent.candidate.id →
      parent.candidate.tipEpoch = m.sourceEpoch →
      Derivable input messages supplied (ofCommit m edge parent.candidate.forkEpoch
        parent.commitPath parent.consumedProposalIds)

/-- The branches of a call, the materialized ones last. -/
def suppliedBranches (input : CanonicalizationInput)
    (materialized : List MaterializedCandidate) : List DerivedBranch :=
  input.candidateBranches.map ofCandidate ++ materialized.map ofMaterialized

/-- The branch is there under its id, with its commits and proposals. -/
structure GraphState.Stores (g : GraphState) (b : DerivedBranch) : Prop where
  candidate : g.candidates[b.candidate.id]? = some b.candidate
  commitPath : g.commitPathByBranch[b.candidate.id]? = some b.commitPath
  consumed : g.consumedProposalIdsByBranch[b.candidate.id]? = some b.consumedProposalIds

/-! ### Seeding -/

/-- `g'` is `g` with the branch `b`. -/
def GraphState.Puts (g g' : GraphState) (b : DerivedBranch) : Prop :=
  g'.candidates = g.candidates.insert b.candidate.id b.candidate ∧
    g'.commitPathByBranch = g.commitPathByBranch.insert b.candidate.id b.commitPath ∧
    g'.consumedProposalIdsByBranch =
      g.consumedProposalIdsByBranch.insert b.candidate.id b.consumedProposalIds

variable {input : CanonicalizationInput} {messages : List PeeledMessage}
  {supplied : List DerivedBranch} {g g' : GraphState} {b b' : DerivedBranch}

theorem GraphState.Puts.stores (h : g.Puts g' b) : g'.Stores b := by
  obtain ⟨hc, hp, hq⟩ := h
  constructor
  · rw [hc, ExtTreeMap.getElem?_insert_self]
  · rw [hp, ExtTreeMap.getElem?_insert_self]
  · rw [hq, ExtTreeMap.getElem?_insert_self]

theorem GraphState.Puts.stores_of_ne (h : g.Puts g' b) (hne : b.candidate.id ≠ b'.candidate.id) :
    g.Stores b' → g'.Stores b' := by
  obtain ⟨hc, hp, hq⟩ := h
  rintro ⟨h₁, h₂, h₃⟩
  constructor
  · rwa [hc, ExtTreeMap.getElem?_insert, if_neg (mt Std.compare_eq_iff_eq.mp hne)]
  · rwa [hp, ExtTreeMap.getElem?_insert, if_neg (mt Std.compare_eq_iff_eq.mp hne)]
  · rwa [hq, ExtTreeMap.getElem?_insert, if_neg (mt Std.compare_eq_iff_eq.mp hne)]

/-- The branches of the graph have the property `P`, and are stored whole. -/
def GraphState.Sound (P : DerivedBranch → Prop) (g : GraphState) : Prop :=
  ∀ (id : String) candidate, g.candidates[id]? = some candidate →
    ∃ b, P b ∧ b.candidate.id = id ∧ b.candidate = candidate ∧ g.Stores b

theorem GraphState.Sound.put {P P' : DerivedBranch → Prop} (h : g.Sound P) (hput : g.Puts g' b)
    (hb : P' b) (hP : ∀ b', P b' → b.candidate.id ≠ b'.candidate.id → P' b') : g'.Sound P' := by
  intro id candidate hid
  rw [hput.1, ExtTreeMap.getElem?_insert] at hid
  split at hid
  · rename_i heq
    exact ⟨b, hb, Std.compare_eq_iff_eq.mp heq, Option.some.inj hid, hput.stores⟩
  · rename_i hne
    obtain ⟨b', hb', rfl, hc, hstores⟩ := h id candidate hid
    have hne' := mt Std.compare_eq_iff_eq.mpr hne
    exact ⟨b', hP b' hb' hne', rfl, hc, hput.stores_of_ne hne' hstores⟩

/-- The branches supplied so far are in the graph, and no others. -/
structure Supplied (supplied : List DerivedBranch) (g : GraphState) : Prop where
  sound : g.Sound (LastOf supplied)
  covers : ∀ b ∈ supplied, b.candidate.id ∈ g.candidates
  unused : g.materializedCommitIds = ∅

theorem Supplied.put (h : Supplied supplied g) (hput : g.Puts g' b)
    (hused : g'.materializedCommitIds = g.materializedCommitIds) :
    Supplied (supplied ++ [b]) g' := by
  refine ⟨?_, ?_, hused.trans h.unused⟩
  · refine h.sound.put hput (by simp [LastOf]) fun b' hb' hne => ?_
    simpa [LastOf, find?_cons, hne] using hb'
  · intro b' hb'
    rw [hput.1, ExtTreeMap.mem_insert]
    rcases mem_append.mp hb' with hb' | hb'
    · exact .inr (h.covers b' hb')
    · rw [mem_singleton.mp hb']
      exact .inl Std.compare_self

theorem Supplied.foldl {α : Type} {step : GraphState → α → GraphState} {branch : α → DerivedBranch}
    (hstep : ∀ (g : GraphState) a, g.Puts (step g a) (branch a) ∧
      (step g a).materializedCommitIds = g.materializedCommitIds) (l : List α)
    (h : Supplied supplied g) :
    Supplied (supplied ++ l.map branch) (l.foldl step g) := by
  induction l generalizing supplied g with
  | nil => simpa using h
  | cons a l ih => simpa using ih (h.put (hstep g a).1 (hstep g a).2)

theorem supplied_seedGraph (input : CanonicalizationInput)
    (materialized : List MaterializedCandidate) :
    Supplied (suppliedBranches input materialized) (seedGraph input materialized) := by
  have hcandidate (g : GraphState) (c : BranchCandidate) :
      g.Puts (seedCandidateBranch g c) (ofCandidate c) ∧
        (seedCandidateBranch g c).materializedCommitIds = g.materializedCommitIds :=
    ⟨⟨rfl, rfl, rfl⟩, rfl⟩
  have hmaterialized (g : GraphState) (c : MaterializedCandidate) :
      g.Puts (seedMaterializedCandidate g c) (ofMaterialized c) ∧
        (seedMaterializedCandidate g c).materializedCommitIds = g.materializedCommitIds :=
    ⟨⟨rfl, rfl, rfl⟩, rfl⟩
  have hempty : Supplied [] {} := ⟨fun id c hc => by simp at hc, by simp, rfl⟩
  exact (hempty.foldl hcandidate input.candidateBranches).foldl hmaterialized materialized

/-! ### Derivations -/

theorem commitInWindow_iff {forkEpoch : UInt64} : commitInWindow input forkEpoch = true ↔
    input.state.retainedAnchorEpoch ≤ forkEpoch ∧
      input.state.currentTipEpoch.saturatingSub forkEpoch ≤
        input.policy.convergence.maxRewindCommits := by
  simp [commitInWindow]

/-- What makes a commit's branch its own: its id, which no other commit and no supplied
branch uses. -/
structure OwnBranches (messages : List PeeledMessage) (supplied : List DerivedBranch) : Prop where
  commits : ∀ m ∈ messages, ∀ m' ∈ messages, m.commit?.isSome →
    m.commit?.map CommitEdge.branchId = m'.commit?.map CommitEdge.branchId → m = m'
  supplied : ∀ m ∈ messages, ∀ b ∈ supplied,
    m.commit?.map CommitEdge.branchId ≠ some b.candidate.id

/-- A branch is derived in one way. -/
theorem Derivable.unique (hown : OwnBranches messages supplied)
    (h : Derivable input messages supplied b) (h' : Derivable input messages supplied b')
    (hid : b.candidate.id = b'.candidate.id) : b = b' := by
  have hfresh : ∀ {b m edge}, LastOf supplied b → Applicable input messages m edge →
      b.candidate.id ≠ edge.branchId := by
    intro b m edge hlast ha hid
    refine hown.supplied m ha.pending b (mem_reverse.mp (mem_of_find?_eq_some hlast)) ?_
    rw [ha.commit, hid]
    rfl
  have hsame : ∀ {m m' edge edge'}, Applicable input messages m edge →
      Applicable input messages m' edge' → edge.branchId = edge'.branchId →
      m = m' ∧ edge = edge' := by
    intro m m' edge edge' ha ha' hbranch
    obtain rfl := hown.commits m ha.pending m' ha'.pending (by simp [ha.commit])
      (by simp [ha.commit, ha'.commit, hbranch])
    exact ⟨rfl, Option.some.inj (ha.commit.symm.trans ha'.commit)⟩
  induction h generalizing b' with
  | supplied hlast =>
    cases h' with
    | supplied hlast' =>
      rw [LastOf, hid] at hlast
      exact Option.some.inj (hlast.symm.trans hlast')
    | root ha => exact (hfresh hlast ha hid).elim
    | child ha => exact (hfresh hlast ha hid).elim
  | root ha hroot =>
    cases h' with
    | supplied hlast' => exact (hfresh hlast' ha hid.symm).elim
    | root ha' =>
      obtain ⟨rfl, rfl⟩ := hsame ha ha' hid
      rfl
    | child ha' _ hparent =>
      obtain ⟨rfl, rfl⟩ := hsame ha ha' hid
      rw [hroot] at hparent
      cases hparent
  | child ha hparent hname htip ih =>
    cases h' with
    | supplied hlast' => exact (hfresh hlast' ha hid.symm).elim
    | root ha' hroot =>
      obtain ⟨rfl, rfl⟩ := hsame ha ha' hid
      rw [hroot] at hname
      cases hname
    | child ha' hparent' hname' =>
      obtain ⟨rfl, rfl⟩ := hsame ha ha' hid
      rw [ih hparent' (Option.some.inj (hname.symm.trans hname'))]

/-! ### The graph -/

variable {m : PeeledMessage} {edge : CommitEdge} {parent : ResolvedParent}

theorem Adds.derivable (h : Adds input g m edge parent) (hm : m ∈ messages)
    (hg : g.Sound (Derivable input messages supplied)) :
    Derivable input messages supplied
      (ofCommit m edge parent.forkEpoch parent.commitPath parent.consumedProposalIds) := by
  obtain ⟨hanchor, hhorizon⟩ := commitInWindow_iff.mp h.inWindow
  have happlicable : Applicable input messages m edge :=
    ⟨hm, h.commit, hanchor, hhorizon, h.advances⟩
  have hresolved := h.resolved
  have hmatches := h.matchesParent
  cases hparent : edge.parentBranchId with
  | none =>
    rw [hparent] at hresolved hmatches
    rw [← Option.some.inj hresolved]
    exact .root happlicable hparent (by simpa [sourceEpochMatchesParent] using hmatches)
  | some parentId =>
    rw [hparent] at hresolved hmatches
    simp only [resolveParent] at hresolved
    cases hcandidate : g.candidates[parentId]? with
    | none => simp [hcandidate] at hresolved
    | some candidate =>
      simp only [sourceEpochMatchesParent, hcandidate, Option.any_some, beq_iff_eq] at hmatches
      obtain ⟨b, hb, rfl, rfl, hstores⟩ := hg parentId candidate hcandidate
      simp only [hcandidate, hstores.commitPath, hstores.consumed, Option.getD_some,
        Option.some.injEq] at hresolved
      rw [← hresolved]
      exact .child happlicable hb hparent hmatches

/-- The branches so far are derivable, and a commit that was used has its branch. -/
structure Growing (input : CanonicalizationInput) (messages : List PeeledMessage)
    (supplied : List DerivedBranch) (g : GraphState) : Prop where
  sound : g.Sound (Derivable input messages supplied)
  covers : ∀ b ∈ supplied, b.candidate.id ∈ g.candidates
  used : ∀ m ∈ messages, ∀ edge, m.commit? = some edge →
    m.messageId ∈ g.materializedCommitIds → edge.branchId ∈ g.candidates

/-- Commits have message ids of their own. -/
def CommitIds (messages : List PeeledMessage) : Prop :=
  ∀ m ∈ messages, ∀ m' ∈ messages, m.commit?.isSome → m'.commit?.isSome →
    m.messageId = m'.messageId → m = m'

theorem Growing.addCommit (h : Growing input messages supplied g) (hids : CommitIds messages)
    (hm : m ∈ messages) (hadds : Adds input g m edge parent) :
    Growing input messages supplied (g.addCommit m edge parent) := by
  have hmono : ∀ id, id ∈ g.candidates → id ∈ (g.addCommit m edge parent).candidates :=
    fun id hid => ExtTreeMap.mem_insert.mpr (.inr hid)
  refine ⟨?_, fun b hb => hmono _ (h.covers b hb), ?_⟩
  · exact h.sound.put (b := ofCommit m edge parent.forkEpoch parent.commitPath
      parent.consumedProposalIds) ⟨rfl, rfl, rfl⟩ (hadds.derivable hm h.sound) fun _ hb _ => hb
  · intro m' hm' edge' hedge' hused
    rcases ExtTreeSet.mem_insert.mp hused with heq | hused
    · have hsome : ∀ {m : PeeledMessage} {e}, m.commit? = some e → m.commit?.isSome :=
        fun h => by simp [h]
      obtain rfl := hids m hm m' hm' (hsome hadds.commit) (hsome hedge')
        (Std.compare_eq_iff_eq.mp heq)
      obtain rfl := Option.some.inj (hadds.commit.symm.trans hedge')
      exact ExtTreeMap.mem_insert.mpr (.inl Std.compare_self)
    · exact hmono _ (h.used m' hm' edge' hedge' hused)

theorem Growing.complete (h : Growing input messages supplied g)
    (hown : OwnBranches messages supplied)
    (hfixed : ∀ m ∈ messages, materializeCommit input g m = none)
    (hb : Derivable input messages supplied b) : b.candidate.id ∈ g.candidates := by
  -- A commit that could be added still would be.
  have hadd : ∀ {m edge parent}, Applicable input messages m edge →
      resolveParent edge.parentBranchId edge.forkEpoch g = some parent →
      sourceEpochMatchesParent edge.parentBranchId m.sourceEpoch edge.forkEpoch g = true →
      edge.branchId ∈ g.candidates := by
    intro m edge parent ha hresolved hmatches
    by_contra hnew
    have hadds : Adds input g m edge parent :=
      ⟨ha.commit, fun hused => hnew (h.used m ha.pending edge ha.commit hused), hnew,
        commitInWindow_iff.mpr ⟨ha.anchored, ha.inHorizon⟩, ha.advances, hresolved, hmatches⟩
    have hsome := materializeCommit_eq_some.mpr ⟨edge, parent, hadds, rfl⟩
    rw [hfixed m ha.pending] at hsome
    cases hsome
  induction hb with
  | supplied hlast => exact h.covers _ (mem_reverse.mp (mem_of_find?_eq_some hlast))
  | root ha hroot hsource =>
    refine hadd ha (by rw [hroot]; rfl) ?_
    simp [hroot, sourceEpochMatchesParent, hsource]
  | @child m edge parent ha hparent hname htip ih =>
    obtain ⟨c, hc⟩ := Option.isSome_iff_exists.mp (ExtTreeMap.mem_iff_isSome_getElem?.mp ih)
    obtain ⟨b', hb', hid, rfl, -⟩ := h.sound _ c hc
    obtain rfl := hb'.unique hown hparent hid
    refine hadd ha (by rw [hname, resolveParent, hc]) ?_
    simp [hname, sourceEpochMatchesParent, hc, htip]

/-- The messages a call builds its graph from. -/
def graphMessages (input : CanonicalizationInput) (shared : Option (ExtTreeSet String)) :
    List PeeledMessage :=
  (dedup (isSeen input shared) input.pendingMessages).uniqueMessages

theorem commitIds_graphMessages (input : CanonicalizationInput)
    (shared : Option (ExtTreeSet String)) : CommitIds (graphMessages input shared) := by
  intro m hm m' hm' hcommit hcommit' hid
  have hnodup := (dedup_distinct (isSeen input shared) input.pendingMessages).nodup
  obtain ⟨edge, hedge⟩ := Option.isSome_iff_exists.mp hcommit
  obtain ⟨edge', hedge'⟩ := Option.isSome_iff_exists.mp hcommit'
  refine inj_on_of_nodup_map hnodup (mem_filter.mpr ⟨hm, ?_⟩)
    (mem_filter.mpr ⟨hm', ?_⟩) hid
  · simp [readmittedWitness_of_commit hedge]
  · simp [readmittedWitness_of_commit hedge']

/-- The graph of a call, before it is packed. -/
def graphState (input : CanonicalizationInput) (shared : Option (ExtTreeSet String))
    (materialized : List MaterializedCandidate) : GraphState :=
  materializeLoop input (sortedCommits (graphMessages input shared)) (seedGraph input materialized)

variable {shared : Option (ExtTreeSet String)} {materialized : List MaterializedCandidate}

theorem mem_sortedCommits {messages : List PeeledMessage} :
    m ∈ sortedCommits messages ↔ m ∈ messages ∧ m.commit?.isSome = true :=
  mem_sortBy.trans mem_filter

theorem growing_graphState : Growing input (graphMessages input shared)
    (suppliedBranches input materialized) (graphState input shared materialized) := by
  have hseeded := supplied_seedGraph input materialized
  refine graph_induction ⟨?_, hseeded.covers, ?_⟩ fun _ _ _ _ hm h hadds =>
    h.addCommit (commitIds_graphMessages input shared) (mem_sortedCommits.mp hm).1 hadds
  · intro id c hc
    obtain ⟨b, hb, hrest⟩ := hseeded.sound id c hc
    exact ⟨b, .supplied hb, hrest⟩
  · simp [hseeded.unused]

theorem graphState_fixed :
    materializePass input (sortedCommits (graphMessages input shared))
      (graphState input shared materialized) = (graphState input shared materialized, false) :=
  Progress.loop_fixed (μ := fun g => (unmaterialized _ g).length) materializePass_lt
    materializePass_idle unmaterialized_lt_bound

/-- What can be derived is in the graph, with its commits and proposals. -/
theorem Derivable.stored
    (hown : OwnBranches (graphMessages input shared) (suppliedBranches input materialized))
    (hb : Derivable input (graphMessages input shared) (suppliedBranches input materialized) b) :
    (graphState input shared materialized).Stores b := by
  have hnone : ∀ m ∈ graphMessages input shared,
      materializeCommit input (graphState input shared materialized) m = none := by
    intro m hm
    cases hcommit : m.commit? with
    | none => simp [materializeCommit, hcommit]
    | some edge =>
      refine materializeCommit_of_fixed (congrArg Prod.snd graphState_fixed) m ?_
      exact mem_sortedCommits.mpr ⟨hm, by simp [hcommit]⟩
  obtain ⟨c, hc⟩ := Option.isSome_iff_exists.mp
    (ExtTreeMap.mem_iff_isSome_getElem?.mp (growing_graphState.complete hown hnone hb))
  obtain ⟨b', hb', hid, -, hstores⟩ := growing_graphState.sound _ c hc
  rwa [hb'.unique hown hb hid] at hstores

/-- **The candidates of a call are the least set closed under its rules.** -/
theorem graph_is_least_fixpoint (input : CanonicalizationInput)
    (shared : Option (ExtTreeSet String)) (materialized : List MaterializedCandidate)
    (hown : OwnBranches input.pendingMessages (suppliedBranches input materialized)) :
    let commits := sortedCommits (graphMessages input shared)
    let g := materializeLoop input commits (seedGraph input materialized)
    let graph := materializeCandidateGraph input (graphMessages input shared) materialized
    materializePass input commits g = (g, false) ∧ graph = g.toGraph ∧
    (∀ c, c ∈ graph.candidates ↔ ∃ b, b.candidate = c ∧
      Derivable input (graphMessages input shared) (suppliedBranches input materialized) b) ∧
    ∀ b, Derivable input (graphMessages input shared) (suppliedBranches input materialized) b →
      graph.commitPathByBranch[b.candidate.id]? = some b.commitPath ∧
      graph.consumedProposalIdsByBranch[b.candidate.id]? = some b.consumedProposalIds := by
  intro commits g graph
  have hown : OwnBranches (graphMessages input shared) (suppliedBranches input materialized) :=
    ⟨fun m hm m' hm' => hown.commits m (mem_of_mem_uniqueMessages hm) m'
      (mem_of_mem_uniqueMessages hm'), fun m hm => hown.supplied m (mem_of_mem_uniqueMessages hm)⟩
  refine ⟨graphState_fixed, rfl, fun c => ?_,
    fun b hb => ⟨(hb.stored hown).commitPath, (hb.stored hown).consumed⟩⟩
  have hkeyed : g.Keyed := keyed_materializeLoop (keyed_seedGraph input materialized)
  rw [show graph.candidates = g.toGraph.candidates from rfl,
    GraphState.mem_toGraph_candidates hkeyed]
  constructor
  · intro hc
    obtain ⟨b, hb, -, hbc, -⟩ := growing_graphState.sound _ c hc
    exact ⟨b, hbc, hb⟩
  · rintro ⟨b, rfl, hb⟩
    exact (hb.stored hown).candidate

/-- A root commit and its child, which comes first, and a branch supplied twice. -/
def twiceSupplied : CanonicalizationInput :=
  { batchInput [commitMessage "m2" 1 11 "b2" (some "b1"), commitMessage "m1" 1 10 "b1" none] with
    candidateBranches := [8, 9].map fun forkEpoch =>
      ⟨"supplied", forkEpoch, 12, .ordinary, [], Vector.replicate 32 0, []⟩ }

theorem ownBranches_twiceSupplied :
    OwnBranches twiceSupplied.pendingMessages (suppliedBranches twiceSupplied []) := by
  constructor
  · decide
  · decide

theorem twice_supplied_graph_is_derived :
    OwnBranches twiceSupplied.pendingMessages (suppliedBranches twiceSupplied []) ∧
      ∀ c, c ∈ (materializeCandidateGraph twiceSupplied (graphMessages twiceSupplied none)
          []).candidates ↔ ∃ b, b.candidate = c ∧ Derivable twiceSupplied
        (graphMessages twiceSupplied none) (suppliedBranches twiceSupplied []) b :=
  ⟨ownBranches_twiceSupplied,
    (graph_is_least_fixpoint twiceSupplied none [] ownBranches_twiceSupplied).2.2.1⟩

theorem first_supplied_is_replaced :
    OwnBranches twiceSupplied.pendingMessages (suppliedBranches twiceSupplied []) ∧
      ∃ c ∈ twiceSupplied.candidateBranches, c ∉ (materializeCandidateGraph twiceSupplied
        (graphMessages twiceSupplied none) []).candidates :=
  ⟨ownBranches_twiceSupplied, by decide⟩

end Mdk
