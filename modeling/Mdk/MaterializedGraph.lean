/-
The graph of candidate branches (`materialize_candidate_graph` and
`attach_app_witnesses` of `canonicalization.rs`).

Caller-supplied candidates seed the graph.  Then the commits of the batch,
sorted by source epoch and id, are tried again and again: a commit whose parent
branch is there, and whose epochs fit, adds the branch it names.  The loop ends
with the first round that adds nothing.

* `graph_induction` — the induction rule of the loop: what the seed has and
  every added commit keeps, the graph has;
* `materializeLoop_fixed` — the loop ends because nothing is left to add, not
  because its bound is reached;
* `foldl_attachAppWitness_eq_map` — witnesses are attached branch by branch.
-/
import Mdk.Canonicalization

open Std (ExtTreeMap ExtTreeSet TransCmp)
open Comparison

namespace Mdk

open BranchCandidate List

/-- The maps the graph loop works on. -/
structure GraphState where
  candidates : ExtTreeMap String BranchCandidate := ∅
  commitPathByBranch : ExtTreeMap String (List String) := ∅
  branchPathByBranch : ExtTreeMap String (ExtTreeSet String) := ∅
  consumedProposalIdsByBranch : ExtTreeMap String (ExtTreeSet String) := ∅
  materializedCommitIdsByBranch : ExtTreeMap String (ExtTreeSet String) := ∅
  materializedCommitIds : ExtTreeSet String := ∅

structure MaterializedGraph where
  candidates : List BranchCandidate
  commitPathByBranch : ExtTreeMap String (List String)
  branchPathByBranch : ExtTreeMap String (ExtTreeSet String)
  consumedProposalIdsByBranch : ExtTreeMap String (ExtTreeSet String)
  materializedCommitIdsByBranch : ExtTreeMap String (ExtTreeSet String)
  branchIds : ExtTreeSet String

structure ResolvedParent where
  forkEpoch : UInt64
  commitPath : List String
  branchPath : ExtTreeSet String
  consumedProposalIds : ExtTreeSet String

/-! ### Seeding -/

def seedCandidateBranch (g : GraphState) (candidate : BranchCandidate) : GraphState :=
  { g with
    candidates := g.candidates.insert candidate.id candidate
    commitPathByBranch := g.commitPathByBranch.insert candidate.id []
    branchPathByBranch := g.branchPathByBranch.insert candidate.id (.ofList [candidate.id])
    consumedProposalIdsByBranch := g.consumedProposalIdsByBranch.insert candidate.id ∅ }

def seedMaterializedCandidate (g : GraphState) (m : MaterializedCandidate) : GraphState :=
  let branchId := m.branch.id
  { g with
    candidates := g.candidates.insert branchId m.branch
    commitPathByBranch := g.commitPathByBranch.insert branchId m.commitMessageIds
    branchPathByBranch := g.branchPathByBranch.insert branchId (.ofList [branchId])
    consumedProposalIdsByBranch :=
      g.consumedProposalIdsByBranch.insert branchId (.ofList m.consumedProposalIds)
    materializedCommitIdsByBranch :=
      g.materializedCommitIdsByBranch.insert branchId (.ofList m.commitMessageIds) }

section

variable (input : CanonicalizationInput)

def seedGraph (materializedCandidates : List MaterializedCandidate) : GraphState :=
  -- A branch supplied both ways is the materialized one.
  materializedCandidates.foldl seedMaterializedCandidate
    (input.candidateBranches.foldl seedCandidateBranch {})

/-! ### Adding commits -/

def resolveParent (parentBranchId : Option String) (forkEpoch : UInt64) (g : GraphState) :
    Option ResolvedParent :=
  match parentBranchId with
  | some parentId =>
    match g.candidates[parentId]? with
    | none => none
    | some parent =>
      some
        { forkEpoch := parent.forkEpoch
          commitPath := g.commitPathByBranch[parentId]?.getD []
          branchPath := g.branchPathByBranch[parentId]?.getD ∅
          consumedProposalIds := g.consumedProposalIdsByBranch[parentId]?.getD ∅ }
  | none =>
    -- A root commit starts a branch at the epoch it names.
    some { forkEpoch := forkEpoch, commitPath := [], branchPath := ∅, consumedProposalIds := ∅ }

def sourceEpochMatchesParent (parentBranchId : Option String) (sourceEpoch forkEpoch : UInt64)
    (g : GraphState) : Bool :=
  match parentBranchId with
  | some parentId => g.candidates[parentId]?.any fun parent => parent.tipEpoch == sourceEpoch
  | none => sourceEpoch == forkEpoch

/-- The window checks of a commit, which `handle_commit` repeats. -/
def commitInWindow (forkEpoch : UInt64) : Bool :=
  !decide (forkEpoch < input.state.retainedAnchorEpoch) &&
    !decide (input.policy.convergence.maxRewindCommits <
      input.state.currentTipEpoch.saturatingSub forkEpoch)

/-- The branch a commit adds below `parent`. -/
def addedCandidate (message : PeeledMessage) (edge : CommitEdge) (parent : ResolvedParent) :
    BranchCandidate where
  id := edge.branchId
  forkEpoch := parent.forkEpoch
  tipEpoch := edge.resultingEpoch
  tipPriority := edge.tipPriority
  tipCommitter := message.sender
  tipDigest := edge.tipDigest
  appWitnesses := []

/-- The state once `message` has added the branch of its commit below `parent`. -/
def GraphState.addCommit (g : GraphState) (message : PeeledMessage) (edge : CommitEdge)
    (parent : ResolvedParent) : GraphState :=
  { g with
    candidates := g.candidates.insert edge.branchId (addedCandidate message edge parent)
    commitPathByBranch :=
      g.commitPathByBranch.insert edge.branchId (parent.commitPath ++ [message.messageId])
    branchPathByBranch :=
      g.branchPathByBranch.insert edge.branchId (parent.branchPath.insert edge.branchId)
    consumedProposalIdsByBranch :=
      g.consumedProposalIdsByBranch.insert edge.branchId
        (parent.consumedProposalIds.insertMany edge.consumedProposalIds)
    materializedCommitIds := g.materializedCommitIds.insert message.messageId }

/-- One message of a round: the state it leads to, if it adds its branch. -/
def materializeCommit (g : GraphState) (message : PeeledMessage) : Option GraphState :=
  match message.commit? with
  | none => none
  | some edge =>
    -- A branch that is there is never replaced by another commit that names it.
    if g.materializedCommitIds.contains message.messageId || g.candidates.contains edge.branchId
        || !commitInWindow input edge.forkEpoch
        || decide (edge.resultingEpoch ≤ message.sourceEpoch) then none
    else
      match resolveParent edge.parentBranchId edge.forkEpoch g with
      | none => none
      | some parent =>
        if sourceEpochMatchesParent edge.parentBranchId message.sourceEpoch edge.forkEpoch g then
          some (g.addCommit message edge parent)
        else none

/-- One round over the commits, and whether it added a branch. -/
def materializePass (commits : List PeeledMessage) (g : GraphState) : GraphState × Bool :=
  commits.foldl (fun (acc : GraphState × Bool) message =>
    match materializeCommit input acc.1 message with
    | some g' => (g', true)
    | none => acc) (g, false)

def compareCommitMessages (a b : PeeledMessage) : Ordering :=
  (compare a.sourceEpoch b.sourceEpoch).then (compare a.messageId b.messageId)

variable (uniqueMessages : List PeeledMessage)

/-- The commits of a batch, in the order the rounds try them. -/
def sortedCommits : List PeeledMessage :=
  sortBy compareCommitMessages (uniqueMessages.filter fun message => message.commit?.isSome)

/-- The state the graph loop ends in. -/
def materializeLoop (commits : List PeeledMessage) (g : GraphState) : GraphState :=
  -- A round that adds a branch uses up a commit; `materializeLoop_fixed` says that the
  -- bound is never the reason to stop.
  Progress.loop (materializePass input commits) (commits.length + 1) g

def GraphState.toGraph (g : GraphState) : MaterializedGraph where
  candidates := g.candidates.toList.map Prod.snd
  commitPathByBranch := g.commitPathByBranch
  branchPathByBranch := g.branchPathByBranch
  consumedProposalIdsByBranch := g.consumedProposalIdsByBranch
  materializedCommitIdsByBranch := g.materializedCommitIdsByBranch
  branchIds := .ofList g.candidates.keys

def materializeCandidateGraph (materializedCandidates : List MaterializedCandidate) :
    MaterializedGraph :=
  (materializeLoop input (sortedCommits uniqueMessages)
    (seedGraph input materializedCandidates)).toGraph

end

/-! ### Witnesses -/

/-- Apply `f` to the first candidate with the id `branchId`. -/
def updateCandidate (branchId : String) (f : BranchCandidate → BranchCandidate) :
    List BranchCandidate → List BranchCandidate
  | [] => []
  | c :: cs => if c.id = branchId then f c :: cs else c :: updateCandidate branchId f cs

/-- The witness a message is for a branch it decrypts on, if it counts for it. -/
def witnessFor (policy : CanonicalizationPolicy) (sender : List UInt8) (epoch : UInt64)
    (candidate : BranchCandidate) : BranchCandidate :=
  -- A message of the shared history says nothing about the branch.
  if epoch ≤ candidate.forkEpoch then candidate
  -- The window is measured from the tip of the branch, not from the canonical one.
  else if appMessageExpired candidate.tipEpoch policy epoch then candidate
  else { candidate with appWitnesses := candidate.appWitnesses ++ [⟨epoch, sender⟩] }

def attachAppWitness (policy : CanonicalizationPolicy) (candidates : List BranchCandidate)
    (message : PeeledMessage) : List BranchCandidate :=
  match message.app? with
  | none => candidates
  | some app =>
    app.decryptsOnBranches.foldl (fun candidates branchId =>
      updateCandidate branchId (witnessFor policy message.sender app.epoch) candidates) candidates

def attachAppWitnesses (graph : MaterializedGraph) (uniqueMessages : List PeeledMessage)
    (policy : CanonicalizationPolicy) : MaterializedGraph :=
  { graph with candidates := uniqueMessages.foldl (attachAppWitness policy) graph.candidates }

/-! ### What a step of the loop does -/

/-- `message` adds the branch of `edge` below `parent`. -/
structure Adds (input : CanonicalizationInput) (g : GraphState) (message : PeeledMessage)
    (edge : CommitEdge) (parent : ResolvedParent) : Prop where
  commit : message.commit? = some edge
  newId : message.messageId ∉ g.materializedCommitIds
  newBranch : edge.branchId ∉ g.candidates
  inWindow : commitInWindow input edge.forkEpoch = true
  advances : message.sourceEpoch < edge.resultingEpoch
  resolved : resolveParent edge.parentBranchId edge.forkEpoch g = some parent
  matchesParent :
    sourceEpochMatchesParent edge.parentBranchId message.sourceEpoch edge.forkEpoch g = true

variable {input : CanonicalizationInput} {message : PeeledMessage}

theorem materializeCommit_eq_some {g g' : GraphState} :
    materializeCommit input g message = some g' ↔
      ∃ edge parent, Adds input g message edge parent ∧ g' = g.addCommit message edge parent := by
  constructor
  · intro h
    rw [materializeCommit] at h
    cases hedge : message.commit? with
    | none => simp [hedge] at h
    | some edge =>
      simp only [hedge] at h
      split at h
      · cases h
      · rename_i hchecks
        -- What the loop has not rejected, check by check.
        simp only [Bool.or_eq_true, Bool.not_eq_true', decide_eq_true_eq, not_or,
          Bool.not_eq_true, Bool.not_eq_false] at hchecks
        obtain ⟨⟨⟨hid, hbranch⟩, hwindow⟩, hadv⟩ := hchecks
        cases hparent : resolveParent edge.parentBranchId edge.forkEpoch g with
        | none => simp [hparent] at h
        | some parent =>
          simp only [hparent] at h
          split at h
          · rename_i hmatch
            refine ⟨edge, parent, ⟨hedge, ?_, ?_, hwindow, ?_, hparent, hmatch⟩,
              (Option.some.inj h).symm⟩
            · rw [ExtTreeSet.mem_iff_contains, hid]
              exact Bool.false_ne_true
            · rw [ExtTreeMap.mem_iff_contains, hbranch]
              exact Bool.false_ne_true
            · rw [UInt64.le_iff_toNat_le] at hadv
              rw [UInt64.lt_iff_toNat_lt]
              omega
          · cases h
  · rintro ⟨edge, parent, h, rfl⟩
    have hid : g.materializedCommitIds.contains message.messageId = false :=
      Bool.eq_false_iff.mpr fun hc => h.newId (ExtTreeSet.mem_iff_contains.mpr hc)
    have hbranch : g.candidates.contains edge.branchId = false :=
      Bool.eq_false_iff.mpr fun hc => h.newBranch (ExtTreeMap.mem_iff_contains.mpr hc)
    have hadv : decide (edge.resultingEpoch ≤ message.sourceEpoch) = false := by
      have := h.advances
      rw [UInt64.lt_iff_toNat_lt] at this
      simp only [decide_eq_false_iff_not, UInt64.le_iff_toNat_le]
      omega
    simp only [materializeCommit, h.commit, hid, hbranch, h.inWindow, hadv, h.resolved,
      h.matchesParent, Bool.not_true, Bool.or_self, Bool.false_eq_true, if_false, if_true]

variable {commits : List PeeledMessage}

theorem materializePass_invariant {I : GraphState → Prop}
    (hstep : ∀ g message edge parent, message ∈ commits → I g →
      Adds input g message edge parent → I (g.addCommit message edge parent)) (g : GraphState)
    (hg : I g) : I (materializePass input commits g).1 := by
  rw [materializePass]
  -- The flag of the round plays no part in the invariant.
  generalize hacc : (g, false) = acc
  have hI : I acc.1 := by rw [← hacc]; exact hg
  clear hacc hg
  induction commits generalizing acc with
  | nil => exact hI
  | cons message commits ih =>
    rw [foldl_cons]
    refine ih (fun g' m e q hm => hstep g' m e q (mem_cons_of_mem _ hm)) _ ?_
    cases h : materializeCommit input acc.1 message with
    | none => simpa only [h] using hI
    | some g' =>
      obtain ⟨edge, parent, hadds, rfl⟩ := materializeCommit_eq_some.mp h
      exact hstep acc.1 message edge parent mem_cons_self hI hadds

variable {g : GraphState}

/-- **The induction rule of the graph.**  What the seed has and every added
commit keeps, the finished graph has. -/
theorem graph_induction {I : GraphState → Prop} (hseed : I g)
    (hstep : ∀ g message edge parent, message ∈ commits → I g →
      Adds input g message edge parent → I (g.addCommit message edge parent)) :
    I (materializeLoop input commits g) :=
  Progress.loop_invariant (fun g => materializePass_invariant hstep g) _ hseed

/-! ### The loop ends with nothing left to add -/

/-- The commits whose id no added branch has used yet. -/
def unmaterialized (commits : List PeeledMessage) (g : GraphState) : List PeeledMessage :=
  commits.filter fun message => !g.materializedCommitIds.contains message.messageId

theorem mem_unmaterialized :
    message ∈ unmaterialized commits g ↔
      message ∈ commits ∧ message.messageId ∉ g.materializedCommitIds := by
  rw [unmaterialized, mem_filter, Bool.not_eq_true', ← Bool.not_eq_true,
    ← ExtTreeSet.mem_iff_contains]

/-- Either the round has added nothing so far, or it used an id that was free. -/
def PassProgress (commits : List PeeledMessage) (g : GraphState) (acc : GraphState × Bool) :
    Prop :=
  (∀ id, id ∈ g.materializedCommitIds → id ∈ acc.1.materializedCommitIds) ∧
    if acc.2 then
      ∃ message ∈ commits, message.messageId ∉ g.materializedCommitIds ∧
        message.messageId ∈ acc.1.materializedCommitIds
    else acc.1 = g

theorem materializePass_progress (input : CanonicalizationInput) (commits : List PeeledMessage)
    (g : GraphState) : PassProgress commits g (materializePass input commits g) := by
  rw [materializePass]
  -- The induction is on the rest of the round; `commits` stays the whole of it.
  have hround : ∀ (rest : List PeeledMessage) (acc : GraphState × Bool),
      (∀ message ∈ rest, message ∈ commits) → PassProgress commits g acc →
      PassProgress commits g (rest.foldl (fun (acc : GraphState × Bool) message =>
        match materializeCommit input acc.1 message with
        | some g' => (g', true)
        | none => acc) acc) := by
    intro rest
    induction rest with
    | nil =>
      intro acc _ hacc
      exact hacc
    | cons message rest ih =>
      intro acc hrest hacc
      rw [foldl_cons]
      refine ih _ (fun m hm => hrest m (mem_cons_of_mem _ hm)) ?_
      cases h : materializeCommit input acc.1 message with
      | none => simpa only [h] using hacc
      | some g' =>
        obtain ⟨edge, parent, hadds, rfl⟩ := materializeCommit_eq_some.mp h
        obtain ⟨hmono, -⟩ := hacc
        have hmem : ∀ id, id ∈ (acc.1.addCommit message edge parent).materializedCommitIds ↔
            message.messageId = id ∨ id ∈ acc.1.materializedCommitIds := by
          intro id
          simp [GraphState.addCommit, ExtTreeSet.mem_insert]
        refine ⟨fun id hid => (hmem id).mpr (Or.inr (hmono id hid)), ?_⟩
        simp only [if_true]
        refine ⟨message, hrest message mem_cons_self, fun hg => ?_, ?_⟩
        · exact hadds.newId (hmono _ hg)
        · exact (hmem _).mpr (Or.inl rfl)
  refine hround commits (g, false) (fun _ h => h) ⟨fun _ h => h, ?_⟩
  simp

theorem unmaterialized_lt {acc : GraphState × Bool} (h : PassProgress commits g acc)
    (hacc : acc.2 = true) :
    (unmaterialized commits acc.1).length < (unmaterialized commits g).length := by
  obtain ⟨hmono, hprogress⟩ := h
  rw [if_pos hacc] at hprogress
  obtain ⟨message, hmem, hnew, hused⟩ := hprogress
  have hsub : (unmaterialized commits acc.1).Sublist (unmaterialized commits g) := by
    refine monotone_filter_right commits fun m hm => ?_
    simp only [Bool.not_eq_true', ← Bool.not_eq_true, ← ExtTreeSet.mem_iff_contains] at hm ⊢
    exact fun hg => hm (hmono _ hg)
  -- Lists of one length would be the same list, but `message` has left.
  refine lt_of_le_of_ne hsub.length_le fun heq => ?_
  have hsame := hsub.eq_of_length heq
  have hin : message ∈ unmaterialized commits acc.1 := by
    rw [hsame]
    exact mem_unmaterialized.mpr ⟨hmem, hnew⟩
  exact (mem_unmaterialized.mp hin).2 hused

theorem materializePass_lt (g : GraphState) (hg : (materializePass input commits g).2 = true) :
    (unmaterialized commits (materializePass input commits g).1).length <
      (unmaterialized commits g).length :=
  unmaterialized_lt (materializePass_progress input commits g) hg

theorem materializePass_idle (g : GraphState) (hg : (materializePass input commits g).2 = false) :
    (materializePass input commits g).1 = g := by
  have hpass := (materializePass_progress input commits g).2
  simpa [hg] using hpass

/-- A round that adds nothing finds no commit to add. -/
theorem materializeCommit_of_fixed (h : (materializePass input commits g).2 = false) :
    ∀ m ∈ commits, materializeCommit input g m = none := by
  have hkeeps : ∀ (l : List PeeledMessage) (acc : GraphState × Bool), acc.2 = true →
      (l.foldl (fun (acc : GraphState × Bool) message =>
        match materializeCommit input acc.1 message with
        | some g' => (g', true)
        | none => acc) acc).2 = true := by
    intro l acc hacc
    refine foldlRecOn l _ (motive := fun (acc : GraphState × Bool) => acc.2 = true) hacc
      fun acc h m _ => ?_
    split
    · rfl
    · exact h
  rw [materializePass] at h
  induction commits with
  | nil => simp
  | cons m commits ih =>
    rw [foldl_cons] at h
    cases hm : materializeCommit input g m with
    | none =>
      simp only [hm] at h
      exact forall_mem_cons.mpr ⟨hm, ih h⟩
    | some g' =>
      simp only [hm] at h
      exact (Bool.false_ne_true (h.symm.trans (hkeeps commits (g', true) rfl))).elim

theorem unmaterialized_lt_bound : (unmaterialized commits g).length < commits.length + 1 :=
  Nat.lt_succ_of_le (length_filter_le _ _)

/-- The loop ends because a round adds nothing, not because its bound is reached. -/
theorem materializeLoop_fixed :
    materializePass input commits (materializeLoop input commits g) =
      (materializeLoop input commits g, false) :=
  Progress.loop_fixed (μ := fun g => (unmaterialized commits g).length) materializePass_lt
    materializePass_idle unmaterialized_lt_bound

/-! ### Candidates are kept under their own id -/

/-- Every candidate is stored under its id. -/
def GraphState.Keyed (g : GraphState) : Prop :=
  ∀ (branchId : String) candidate, g.candidates[branchId]? = some candidate →
    candidate.id = branchId

theorem GraphState.Keyed.insert {g g' : GraphState} (h : g.Keyed) (candidate : BranchCandidate)
    (hg' : g'.candidates = g.candidates.insert candidate.id candidate) : g'.Keyed := by
  intro branchId c hc
  rw [hg', ExtTreeMap.getElem?_insert] at hc
  split at hc
  · rename_i heq
    rw [← Option.some.inj hc]
    exact Std.compare_eq_iff_eq.mp heq
  · exact h branchId c hc

theorem keyed_seedGraph (input : CanonicalizationInput)
    (materializedCandidates : List MaterializedCandidate) :
    (seedGraph input materializedCandidates).Keyed := by
  have hbranches : ∀ (cs : List BranchCandidate) (g : GraphState), g.Keyed →
      (cs.foldl seedCandidateBranch g).Keyed := by
    intro cs
    induction cs with
    | nil => exact fun g hg => hg
    | cons c cs ih => exact fun g hg => ih _ (hg.insert c rfl)
  have hmaterialized : ∀ (ms : List MaterializedCandidate) (g : GraphState), g.Keyed →
      (ms.foldl seedMaterializedCandidate g).Keyed := by
    intro ms
    induction ms with
    | nil => exact fun g hg => hg
    | cons m ms ih => exact fun g hg => ih _ (hg.insert m.branch rfl)
  exact hmaterialized _ _ (hbranches _ _ (by intro b c hc; simp at hc))

theorem keyed_materializeLoop (hg : g.Keyed) : (materializeLoop input commits g).Keyed :=
  graph_induction hg fun _ message edge parent _ h _ =>
    h.insert (addedCandidate message edge parent) rfl

theorem GraphState.mem_toGraph_candidates (h : g.Keyed) {candidate : BranchCandidate} :
    candidate ∈ g.toGraph.candidates ↔ g.candidates[candidate.id]? = some candidate := by
  simp only [GraphState.toGraph, mem_map, Prod.exists, exists_eq_right,
    ExtTreeMap.mem_toList_iff_getElem?_eq_some]
  constructor
  · rintro ⟨branchId, hc⟩
    rw [h branchId candidate hc]
    exact hc
  · intro hc
    exact ⟨candidate.id, hc⟩

theorem GraphState.nodup_toGraph_ids (h : g.Keyed) :
    (g.toGraph.candidates.map BranchCandidate.id).Nodup := by
  have hids : g.toGraph.candidates.map BranchCandidate.id = g.candidates.keys := by
    rw [← ExtTreeMap.map_fst_toList_eq_keys, GraphState.toGraph, map_map]
    refine map_congr_left fun entry hentry => ?_
    exact h entry.1 entry.2 (ExtTreeMap.mem_toList_iff_getElem?_eq_some.mp hentry)
  rw [hids]
  exact ExtTreeMap.nodup_keys

/-! ### Witnesses, branch by branch -/

def BranchCandidate.addWitnesses (candidate : BranchCandidate) (witnesses : List AppWitness) :
    BranchCandidate :=
  { candidate with appWitnesses := candidate.appWitnesses ++ witnesses }

variable {cs : List BranchCandidate}

theorem updateCandidate_eq_map {branchId : String} {f : BranchCandidate → BranchCandidate}
    (hnodup : (cs.map BranchCandidate.id).Nodup) :
    updateCandidate branchId f cs = cs.map fun c => if c.id = branchId then f c else c := by
  induction cs with
  | nil => rfl
  | cons c cs ih =>
    rw [map_cons, nodup_cons] at hnodup
    rw [updateCandidate, map_cons]
    by_cases h : c.id = branchId
    · rw [if_pos h, if_pos h]
      -- No later candidate has the id, so the map leaves the rest alone.
      have hrest : cs.map (fun c => if c.id = branchId then f c else c) = cs := by
        conv_rhs => rw [← map_id cs]
        refine map_congr_left fun d hd => ?_
        have hne : d.id ≠ branchId := fun hid =>
          hnodup.1 (mem_map.mpr ⟨d, hd, hid.trans h.symm⟩)
        rw [if_neg hne]
        rfl
      rw [hrest]
    · rw [if_neg h, if_neg h, ih hnodup.2]

section

variable (policy : CanonicalizationPolicy) (sender : List UInt8)

/-- The witnesses a sender contributes through the branches `branches`. -/
def witnessesOver (epoch : UInt64) (candidate : BranchCandidate) (branches : List String) :
    List AppWitness :=
  if epoch ≤ candidate.forkEpoch ∨ appMessageExpired candidate.tipEpoch policy epoch = true then []
  else (branches.filter (· == candidate.id)).map fun _ => ⟨epoch, sender⟩

variable {candidate : BranchCandidate}

theorem witnessFor_eq (epoch : UInt64) :
    witnessFor policy sender epoch candidate =
      candidate.addWitnesses (witnessesOver policy sender epoch candidate [candidate.id]) := by
  rw [witnessFor, witnessesOver]
  by_cases hfork : epoch ≤ candidate.forkEpoch
  · simp [hfork, addWitnesses]
  · by_cases hexpired : appMessageExpired candidate.tipEpoch policy epoch = true
    · simp [hexpired, addWitnesses]
    · simp [hfork, hexpired, addWitnesses]

theorem witnessesOver_append (epoch : UInt64) (bs₁ bs₂ : List String) :
    witnessesOver policy sender epoch candidate (bs₁ ++ bs₂) =
      witnessesOver policy sender epoch candidate bs₁ ++
        witnessesOver policy sender epoch candidate bs₂ := by
  simp only [witnessesOver]
  split
  · rfl
  · rw [filter_append, map_append]

end

theorem addWitnesses_addWitnesses (candidate : BranchCandidate) (ws₁ ws₂ : List AppWitness) :
    (candidate.addWitnesses ws₁).addWitnesses ws₂ = candidate.addWitnesses (ws₁ ++ ws₂) := by
  simp [addWitnesses]

variable {policy : CanonicalizationPolicy}

theorem foldl_updateCandidate_eq_map {sender : List UInt8} {epoch : UInt64} (branches : List String)
    (hnodup : (cs.map BranchCandidate.id).Nodup) :
    branches.foldl (fun cs branchId => updateCandidate branchId (witnessFor policy sender epoch) cs)
        cs =
      cs.map fun c => c.addWitnesses (witnessesOver policy sender epoch c branches) := by
  induction branches generalizing cs with
  | nil => simp [witnessesOver, addWitnesses]
  | cons branchId branches ih =>
    -- One branch id more: its candidate gets its witness first.
    have hstep : updateCandidate branchId (witnessFor policy sender epoch) cs =
        cs.map fun c => c.addWitnesses (witnessesOver policy sender epoch c [branchId]) := by
      rw [updateCandidate_eq_map hnodup]
      refine map_congr_left fun c _ => ?_
      by_cases hid : c.id = branchId
      · rw [if_pos hid, witnessFor_eq, hid]
      · rw [if_neg hid]
        have hne : (branchId == c.id) = false := by
          rw [beq_eq_false_iff_ne]
          exact fun h => hid h.symm
        simp [witnessesOver, hne, addWitnesses]
    rw [foldl_cons, hstep, ih, map_map]
    · refine map_congr_left fun c _ => ?_
      show (c.addWitnesses (witnessesOver policy sender epoch c [branchId])).addWitnesses
        (witnessesOver policy sender epoch c branches) = _
      rw [addWitnesses_addWitnesses, ← witnessesOver_append]
      rfl
    · rw [map_map]
      exact hnodup

/-- What `message` adds to the witnesses of `candidate`. -/
def witnessesFrom (policy : CanonicalizationPolicy) (candidate : BranchCandidate)
    (message : PeeledMessage) : List AppWitness :=
  match message.app? with
  | none => []
  | some app => witnessesOver policy message.sender app.epoch candidate app.decryptsOnBranches

theorem attachAppWitness_eq_map (hnodup : (cs.map BranchCandidate.id).Nodup) :
    attachAppWitness policy cs message =
      cs.map fun c => c.addWitnesses (witnessesFrom policy c message) := by
  rw [attachAppWitness]
  cases happ : message.app? with
  | none => simp [witnessesFrom, happ, addWitnesses]
  | some app =>
    simp only [witnessesFrom, happ]
    exact foldl_updateCandidate_eq_map app.decryptsOnBranches hnodup

/-- Witnesses are attached branch by branch: each branch gets those of every
message, in the order of the messages. -/
theorem foldl_attachAppWitness_eq_map (messages : List PeeledMessage)
    (hnodup : (cs.map BranchCandidate.id).Nodup) :
    messages.foldl (attachAppWitness policy) cs =
      cs.map fun c => c.addWitnesses (messages.flatMap (witnessesFrom policy c)) := by
  induction messages generalizing cs with
  | nil => simp [addWitnesses]
  | cons message messages ih =>
    rw [foldl_cons, attachAppWitness_eq_map hnodup, ih, map_map]
    · refine map_congr_left fun c _ => ?_
      show (c.addWitnesses (witnessesFrom policy c message)).addWitnesses
        (messages.flatMap (witnessesFrom policy c)) = _
      rw [addWitnesses_addWitnesses, flatMap_cons]
    · rw [map_map]
      exact hnodup

end Mdk
