/-
One canonicalization does not see the order its messages arrive in.

Message ids identify messages, so the batch is a set presented as a list.  Each
stage is followed in turn: deduplication keeps the same messages up to order
(`dedup_perm`), the commits are sorted before the graph is built, so the graph
is the same (`sortedCommits_perm`), witnesses are attached branch by branch and
counted as a set, the entry of a message does not depend on the entries before
it, and the lists of entries are sorted at the end.

* `canonicalizeInternal_perm` — for every permutation of the pending messages
  the result is the same, its accepted commits up to order.
-/
import Mdk.Dispositions

open Std (ExtTreeMap ExtTreeSet TransCmp)
open Comparison

namespace Mdk

open List

/-- Messages with the same id are the same message. -/
def IdsIdentify (messages : List PeeledMessage) : Prop :=
  ∀ a ∈ messages, ∀ b ∈ messages, a.messageId = b.messageId → a = b

variable {l₁ l₂ : List PeeledMessage}

theorem IdsIdentify.perm (h : IdsIdentify l₁) (hperm : l₁.Perm l₂) :
    IdsIdentify l₂ := fun a ha b hb =>
  h a (hperm.mem_iff.mpr ha) b (hperm.mem_iff.mpr hb)

/-! ### Deduplication -/

/-- Two states of the deduplication loop that differ in order only. -/
structure Dedup.Same (d₁ d₂ : Dedup) : Prop where
  observed : d₁.batchObservedIds = d₂.batchObservedIds
  seen : d₁.alreadySeen.Perm d₂.alreadySeen
  unique : d₁.uniqueMessages.Perm d₂.uniqueMessages

theorem Dedup.Same.refl (d : Dedup) : d.Same d := ⟨rfl, List.Perm.refl _, List.Perm.refl _⟩

theorem Dedup.Same.trans {d₁ d₂ d₃ : Dedup} (h₁ : d₁.Same d₂) (h₂ : d₂.Same d₃) : d₁.Same d₃ :=
  ⟨h₁.observed.trans h₂.observed, h₁.seen.trans h₂.seen, h₁.unique.trans h₂.unique⟩

variable {seen : String → Bool} {d₁ d₂ : Dedup} {message : PeeledMessage}

theorem dedupStep_same (h : d₁.Same d₂) :
    (dedupStep seen d₁ message).Same (dedupStep seen d₂ message) := by
  rw [dedupStep, dedupStep, h.observed]
  split
  · exact ⟨rfl, h.seen, h.unique.append_right _⟩
  · split
    · exact ⟨rfl, h.seen.append_right _, h.unique⟩
    · exact ⟨rfl, h.seen, h.unique.append_right _⟩

theorem foldl_dedupStep_same (messages : List PeeledMessage) (h : d₁.Same d₂) :
    (messages.foldl (dedupStep seen) d₁).Same (messages.foldl (dedupStep seen) d₂) := by
  induction messages generalizing d₁ d₂ with
  | nil => exact h
  | cons message messages ih => exact ih (dedupStep_same h)

theorem append_swap_perm {α : Type} (l : List α) (x y : α) :
    (l ++ [x] ++ [y]).Perm (l ++ [y] ++ [x]) := by
  rw [append_assoc, append_assoc]
  exact (List.Perm.swap y x []).append_left l

/-- A step observes no id but that of its message. -/
theorem contains_dedupStep (seen : String → Bool) (d : Dedup) {a b : PeeledMessage}
    (hne : a.messageId ≠ b.messageId) :
    (dedupStep seen d a).batchObservedIds.contains b.messageId =
      d.batchObservedIds.contains b.messageId := by
  rw [dedupStep]
  split
  · rfl
  split
  · rfl
  · simp [ExtTreeSet.contains_insert, hne]

/-- Messages with different ids can be deduplicated in either order. -/
theorem dedupStep_comm (d : Dedup) {a b : PeeledMessage} (hne : a.messageId ≠ b.messageId) :
    (dedupStep seen (dedupStep seen d a) b).Same (dedupStep seen (dedupStep seen d b) a) := by
  have hobserved : (d.batchObservedIds.insert a.messageId).insert b.messageId =
      (d.batchObservedIds.insert b.messageId).insert a.messageId := by
    refine ExtTreeSet.ext_mem fun id => ?_
    simp only [ExtTreeSet.mem_insert]
    tauto
  -- Each message takes the branch it would take without the other.
  have hb := contains_dedupStep seen d hne
  have ha := contains_dedupStep seen d hne.symm
  generalize hda : dedupStep seen d a = da at hb ⊢
  generalize hdb : dedupStep seen d b = db at ha ⊢
  rw [dedupStep, hb, dedupStep, ha, ← hda, ← hdb, dedupStep, dedupStep]
  split_ifs <;> constructor <;>
    first | rfl | exact List.Perm.refl _ | exact append_swap_perm _ _ _ | exact hobserved

theorem foldl_dedupStep_perm (hperm : l₁.Perm l₂) (hids : IdsIdentify l₁) (h : d₁.Same d₂) :
    (l₁.foldl (dedupStep seen) d₁).Same (l₂.foldl (dedupStep seen) d₂) := by
  induction hperm generalizing d₁ d₂ with
  | nil => exact h
  | cons message _ ih =>
    exact ih (fun a ha b hb => hids a (mem_cons_of_mem _ ha) b (mem_cons_of_mem _ hb))
      (dedupStep_same h)
  | swap a b l =>
    rw [foldl_cons, foldl_cons, foldl_cons, foldl_cons]
    by_cases hab : b.messageId = a.messageId
    · obtain rfl := hids b mem_cons_self a (mem_cons_of_mem _ mem_cons_self) hab
      exact foldl_dedupStep_same l (dedupStep_same (dedupStep_same h))
    · refine (foldl_dedupStep_same l (dedupStep_comm d₁ hab)).trans ?_
      exact foldl_dedupStep_same l (dedupStep_same (dedupStep_same h))
  | trans h₁ _ ih₁ ih₂ => exact (ih₁ hids (Dedup.Same.refl d₁)).trans (ih₂ (hids.perm h₁) h)

theorem dedup_perm (seen : String → Bool) (hperm : l₁.Perm l₂) (hids : IdsIdentify l₁) :
    (dedup seen l₁).Same (dedup seen l₂) :=
  foldl_dedupStep_perm hperm hids (Dedup.Same.refl {})

/-- Deduplication keeps messages of the batch, and lists the ids of the others. -/
theorem mem_of_mem_uniqueMessages {messages : List PeeledMessage} {message : PeeledMessage}
    (h : message ∈ (dedup seen messages).uniqueMessages) : message ∈ messages := by
  have hfold : ∀ (l : List PeeledMessage) (d : Dedup),
      message ∈ (l.foldl (dedupStep seen) d).uniqueMessages →
        message ∈ d.uniqueMessages ∨ message ∈ l := by
    intro l
    induction l with
    | nil => exact fun d h => Or.inl h
    | cons m l ih =>
      intro d h
      rcases ih (dedupStep seen d m) h with hd | hl
      · have hstep : message ∈ d.uniqueMessages ∨ message = m := by
          unfold dedupStep at hd
          split at hd
          · simpa using hd
          · split at hd
            · exact Or.inl hd
            · simpa using hd
        rcases hstep with hd | rfl
        · exact Or.inl hd
        · exact Or.inr mem_cons_self
      · exact Or.inr (mem_cons_of_mem _ hl)
  rcases hfold messages {} h with hnil | hmem
  · cases hnil
  · exact hmem

/-! ### The graph -/

instance : TransCmp compareCommitMessages :=
  inferInstanceAs (TransCmp (compareLex (compareOn PeeledMessage.sourceEpoch)
    (compareOn PeeledMessage.messageId)))

theorem sortedCommits_perm (hperm : l₁.Perm l₂) (hids : IdsIdentify l₁) :
    sortedCommits l₁ = sortedCommits l₂ := by
  refine sortBy_eq_of_perm (hperm.filter _) fun a ha b hb hab => ?_
  rw [compareCommitMessages, Ordering.then_eq_eq, Std.compare_eq_iff_eq,
    Std.compare_eq_iff_eq] at hab
  exact hids a (mem_of_mem_filter ha) b (mem_of_mem_filter hb) hab.2

/-- Two graphs that differ in the order of witnesses only. -/
structure MaterializedGraph.Same (g₁ g₂ : MaterializedGraph) : Prop where
  candidates : List.Forall₂ PermutedEvidence g₁.candidates g₂.candidates
  commitPath : g₁.commitPathByBranch = g₂.commitPathByBranch
  branchPath : g₁.branchPathByBranch = g₂.branchPathByBranch
  consumed : g₁.consumedProposalIdsByBranch = g₂.consumedProposalIdsByBranch
  materialized : g₁.materializedCommitIdsByBranch = g₂.materializedCommitIdsByBranch
  branchIds : g₁.branchIds = g₂.branchIds

theorem permutedEvidence_addWitnesses (c : BranchCandidate) {ws₁ ws₂ : List AppWitness}
    (h : ws₁.Perm ws₂) : PermutedEvidence (c.addWitnesses ws₁) (c.addWitnesses ws₂) := by
  have hperm : (c.addWitnesses ws₁).appWitnesses.Perm (c.addWitnesses ws₂).appWitnesses :=
    h.append_left c.appWitnesses
  exact ⟨⟨rfl, rfl, rfl, rfl, rfl, rfl, fun _ => hperm.mem_iff⟩, hperm⟩

theorem permutedEvidence_refl (c : BranchCandidate) : PermutedEvidence c c :=
  ⟨⟨rfl, rfl, rfl, rfl, rfl, rfl, fun _ => Iff.rfl⟩, List.Perm.refl _⟩

variable (input : CanonicalizationInput)

theorem nodup_graph_ids (messages : List PeeledMessage) (materialized : List MaterializedCandidate)
    :
    ((materializeCandidateGraph input messages materialized).candidates.map
      BranchCandidate.id).Nodup :=
  GraphState.nodup_toGraph_ids (keyed_materializeLoop (keyed_seedGraph input materialized))

theorem witnessedGraph_perm (hperm : l₁.Perm l₂) (hids : IdsIdentify l₁)
    (materialized : List MaterializedCandidate) (admitted : Bool) :
    (witnessedGraph input l₁ materialized admitted).Same
      (witnessedGraph input l₂ materialized admitted) := by
  have hgraph : materializeCandidateGraph input l₁ materialized =
      materializeCandidateGraph input l₂ materialized := by
    rw [materializeCandidateGraph, materializeCandidateGraph, sortedCommits_perm hperm hids]
  have hnodup := nodup_graph_ids input l₂ materialized
  rw [witnessedGraph, witnessedGraph, hgraph]
  generalize materializeCandidateGraph input l₂ materialized = graph at hnodup
  cases admitted with
  | false =>
    refine ⟨?_, rfl, rfl, rfl, rfl, rfl⟩
    exact forall₂_same.mpr fun c _ => permutedEvidence_refl c
  | true =>
    refine ⟨?_, rfl, rfl, rfl, rfl, rfl⟩
    simp only [if_true, attachAppWitnesses]
    rw [foldl_attachAppWitness_eq_map l₁ hnodup, foldl_attachAppWitness_eq_map l₂ hnodup,
      forall₂_map_left_iff, forall₂_map_right_iff]
    exact forall₂_same.mpr fun c _ =>
      permutedEvidence_addWitnesses c (hperm.flatMap_right _)

/-! ### Results -/

/-- Two results that differ in the order of their disposition lists only. -/
structure CanonicalizationResult.Same (r₁ r₂ : CanonicalizationResult) : Prop where
  previousTip : r₁.previousTip = r₂.previousTip
  selectedTip : r₁.selectedTip = r₂.selectedTip
  selectedForkEpoch : r₁.selectedForkEpoch = r₂.selectedForkEpoch
  selectedBranchId : r₁.selectedBranchId = r₂.selectedBranchId
  candidateCount : r₁.candidateCount = r₂.candidateCount
  eligibleCount : r₁.eligibleCount = r₂.eligibleCount
  convergenceStatus : r₁.convergenceStatus = r₂.convergenceStatus
  queued : r₁.queuedOutboundIntents = r₂.queuedOutboundIntents
  publishable : r₁.publishableOutboundMessages = r₂.publishableOutboundMessages
  errors : r₁.errors = r₂.errors
  trace : r₁.selectionTrace = r₂.selectionTrace
  acceptedCommits : r₁.acceptedCommits.Perm r₂.acceptedCommits
  acceptedProposals : r₁.acceptedProposals.Perm r₂.acceptedProposals
  acceptedApps : r₁.acceptedAppMessages.Perm r₂.acceptedAppMessages
  deferred : r₁.deferredMessages.Perm r₂.deferredMessages
  invalidated : r₁.invalidatedAppMessages.Perm r₂.invalidatedAppMessages
  dropped : r₁.droppedMessages.Perm r₂.droppedMessages
  seen : r₁.alreadySeen.Perm r₂.alreadySeen

namespace CanonicalizationResult

theorem Same.refl (r : CanonicalizationResult) : r.Same r := by
  constructor <;> rfl

theorem Same.trans {r₁ r₂ r₃ : CanonicalizationResult} (h₁ : r₁.Same r₂) (h₂ : r₂.Same r₃) :
    r₁.Same r₃ where
  previousTip := h₁.previousTip.trans h₂.previousTip
  selectedTip := h₁.selectedTip.trans h₂.selectedTip
  selectedForkEpoch := h₁.selectedForkEpoch.trans h₂.selectedForkEpoch
  selectedBranchId := h₁.selectedBranchId.trans h₂.selectedBranchId
  candidateCount := h₁.candidateCount.trans h₂.candidateCount
  eligibleCount := h₁.eligibleCount.trans h₂.eligibleCount
  convergenceStatus := h₁.convergenceStatus.trans h₂.convergenceStatus
  queued := h₁.queued.trans h₂.queued
  publishable := h₁.publishable.trans h₂.publishable
  errors := h₁.errors.trans h₂.errors
  trace := h₁.trace.trans h₂.trace
  acceptedCommits := h₁.acceptedCommits.trans h₂.acceptedCommits
  acceptedProposals := h₁.acceptedProposals.trans h₂.acceptedProposals
  acceptedApps := h₁.acceptedApps.trans h₂.acceptedApps
  deferred := h₁.deferred.trans h₂.deferred
  invalidated := h₁.invalidated.trans h₂.invalidated
  dropped := h₁.dropped.trans h₂.dropped
  seen := h₁.seen.trans h₂.seen

variable {r₁ r₂ : CanonicalizationResult}

theorem Same.push (h : r₁.Same r₂) (d : Disposition) : (r₁.push d).Same (r₂.push d) := by
  cases d with
  | acceptCommit id => exact { h with acceptedCommits := h.acceptedCommits.append_right _ }
  | acceptProposal id => exact { h with acceptedProposals := h.acceptedProposals.append_right _ }
  | acceptApp id => exact { h with acceptedApps := h.acceptedApps.append_right _ }
  | defer entry => exact { h with deferred := h.deferred.append_right _ }
  | drop entry => exact { h with dropped := h.dropped.append_right _ }
  | invalidate entry => exact { h with invalidated := h.invalidated.append_right _ }
  | seen entry => exact { h with seen := h.seen.append_right _ }

/-- Two entries can be pushed in either order. -/
theorem push_comm (r : CanonicalizationResult) (d e : Disposition) :
    ((r.push d).push e).Same ((r.push e).push d) := by
  cases d <;> cases e <;> constructor <;>
    first | rfl | exact List.Perm.refl _ | exact append_swap_perm _ _ _

theorem foldl_push_same (ds : List Disposition) (h : r₁.Same r₂) :
    (ds.foldl push r₁).Same (ds.foldl push r₂) := by
  induction ds generalizing r₁ r₂ with
  | nil => exact h
  | cons d ds ih => exact ih (h.push d)

theorem foldl_push_perm {ds₁ ds₂ : List Disposition} (hperm : ds₁.Perm ds₂) (h : r₁.Same r₂) :
    (ds₁.foldl push r₁).Same (ds₂.foldl push r₂) := by
  induction hperm generalizing r₁ r₂ with
  | nil => exact h
  | cons d _ ih => exact ih (h.push d)
  | swap d e ds =>
    refine (foldl_push_same ds (push_comm r₁ e d)).trans ?_
    exact foldl_push_same ds ((h.push d).push e)
  | trans _ _ ih₁ ih₂ => exact (ih₁ (Same.refl r₁)).trans (ih₂ h)

theorem Same.sort (h : r₁.Same r₂) :
    { r₁.sort with acceptedCommits := [] } = { r₂.sort with acceptedCommits := [] } := by
  simp only [CanonicalizationResult.sort, h.previousTip, h.selectedTip, h.selectedForkEpoch,
    h.selectedBranchId, h.candidateCount, h.eligibleCount, h.convergenceStatus, h.queued,
    h.publishable, h.errors, h.trace, sortBy_eq_of_perm_of_lawful h.acceptedProposals,
    sortBy_eq_of_perm_of_lawful h.acceptedApps, sortBy_eq_of_perm_of_lawful h.deferred,
    sortBy_eq_of_perm_of_lawful h.invalidated, sortBy_eq_of_perm_of_lawful h.dropped,
    sortBy_eq_of_perm_of_lawful h.seen]

theorem Same.resolvedIds (h : r₁.Same r₂) : r₁.resolvedIds.Perm r₂.resolvedIds :=
  (((((h.acceptedCommits.append h.acceptedProposals).append h.acceptedApps).append
    (h.deferred.map _)).append (h.dropped.map _)).append (h.invalidated.map _)).append
    (h.seen.map _)

end CanonicalizationResult

/-! ### Handlers -/

variable {cs₁ cs₂ : List BranchCandidate}

theorem find?_rel (h : List.Forall₂ PermutedEvidence cs₁ cs₂) (branchId : String) :
    Option.Rel PermutedEvidence (cs₁.find? fun c => c.id == branchId)
      (cs₂.find? fun c => c.id == branchId) := by
  induction h with
  | nil => exact Option.Rel.none
  | @cons a b cs₁ cs₂ hab _ ih =>
    rw [find?_cons, find?_cons, hab.1.id]
    split
    · exact Option.Rel.some hab
    · exact ih

theorem branchIneligibilityReason_congr {input : CanonicalizationInput} {a b : BranchCandidate}
    (h : PermutedEvidence a b) :
    branchIneligibilityReason input a = branchIneligibilityReason input b := by
  rw [branchIneligibilityReason, branchIneligibilityReason, h.1.forkEpoch, h.1.isBranchEligible]

theorem find?_ineligibility_congr (h : List.Forall₂ PermutedEvidence cs₁ cs₂)
    (input : CanonicalizationInput) (branchId : String) :
    (cs₁.find? fun c => c.id == branchId).map (branchIneligibilityReason input) =
      (cs₂.find? fun c => c.id == branchId).map (branchIneligibilityReason input) :=
  optionMap_eq_of_rel (find?_rel h branchId) fun _ _ hab => branchIneligibilityReason_congr hab

theorem bind_eq_of_map_eq {α β : Type} {f : α → Option β} {a b : Option α}
    (h : a.map f = b.map f) : a.bind f = b.bind f := by
  cases a <;> cases b <;> simp_all

theorem decryptsOnEligible_congr (h : List.Forall₂ PermutedEvidence cs₁ cs₂)
    (input : CanonicalizationInput) (branches : List String) :
    decryptsOnEligible input cs₁ branches = decryptsOnEligible input cs₂ branches := by
  rw [decryptsOnEligible, decryptsOnEligible, any_filterMap, any_filterMap]
  congr 1
  funext branchId
  have hmap := find?_ineligibility_congr h input branchId
  generalize (cs₁.find? fun c => c.id == branchId) = c₁ at hmap ⊢
  generalize (cs₂.find? fun c => c.id == branchId) = c₂ at hmap ⊢
  cases c₁ <;> cases c₂ <;> simp_all

/-- The pending messages of an input, reordered. -/
def CanonicalizationInput.withPending (messages : List PeeledMessage) : CanonicalizationInput :=
  { input with pendingMessages := messages }

variable {g₁ g₂ : MaterializedGraph}

theorem handleMessage_congr (h : g₁.Same g₂) (input : CanonicalizationInput)
    (pending : List PeeledMessage) (selectedBranchId : Option String) (selectedTip : Option UInt64)
    :
    handleMessage (dispositionContext input g₁ selectedBranchId selectedTip) message =
      handleMessage (dispositionContext (input.withPending pending) g₂ selectedBranchId
        selectedTip) message := by
  rw [handleMessage, handleMessage]
  cases message.kind with
  | commit edge =>
    simp only [dispositionContext, selectedCommitIds, h.commitPath, h.branchIds]
    rfl
  | proposal branchId =>
    have hmap := find?_ineligibility_congr h.candidates input branchId
    simp only [dispositionContext, h.consumed, h.branchPath, h.branchIds, handleProposal]
    rw [bind_eq_of_map_eq hmap]
    rfl
  | appMessage app =>
    simp only [dispositionContext, handleAppMessage,
      decryptsOnEligible_congr h.candidates input app.decryptsOnBranches]
    rfl

variable {r₁ r₂ : CanonicalizationResult} {pending : List PeeledMessage}

theorem classifyLosingCommit_same {input : CanonicalizationInput} {c₁ c₂ : Option BranchCandidate}
    (hc : c₁.map (branchIneligibilityReason input) = c₂.map (branchIneligibilityReason input))
    (h : r₁.Same r₂) (messageId : String) :
    (classifyLosingCommit input c₁ r₁ messageId).Same
      (classifyLosingCommit (input.withPending pending) c₂ r₂ messageId) := by
  have hsome : c₁.isSome = c₂.isSome := by
    have := congrArg Option.isSome hc
    simpa using this
  have hbind : c₁.bind (branchIneligibilityReason input) =
      c₂.bind (branchIneligibilityReason (input.withPending pending)) :=
    bind_eq_of_map_eq hc
  have hcond : (r₁.acceptedCommits.contains messageId
      || (r₁.deferredMessages.any fun deferred => deferred.messageId == messageId)
      || (r₁.droppedMessages.any fun dropped => dropped.messageId == messageId)) =
      (r₂.acceptedCommits.contains messageId
      || (r₂.deferredMessages.any fun deferred => deferred.messageId == messageId)
      || (r₂.droppedMessages.any fun dropped => dropped.messageId == messageId)) := by
    rw [h.acceptedCommits.contains_eq, h.deferred.any_eq, h.dropped.any_eq]
  simp only [classifyLosingCommit, hcond, hsome, hbind]
  split
  · exact h
  · split
    · exact h.push _
    · exact h.push _

theorem foldl_same {α : Type} {f₁ f₂ : CanonicalizationResult → α → CanonicalizationResult}
    (hf : ∀ r₁ r₂ a, r₁.Same r₂ → (f₁ r₁ a).Same (f₂ r₂ a)) (l : List α) (h : r₁.Same r₂) :
    (l.foldl f₁ r₁).Same (l.foldl f₂ r₂) := by
  induction l generalizing r₁ r₂ with
  | nil => exact h
  | cons a l ih => exact ih (hf r₁ r₂ a h)

theorem classifyLosing_same (hg : g₁.Same g₂) (input : CanonicalizationInput) (h : r₁.Same r₂) :
    (classifyLosingMaterializedCandidateCommits r₁ input g₁.candidates
        g₁.materializedCommitIdsByBranch).Same
      (classifyLosingMaterializedCandidateCommits r₂ (input.withPending pending) g₂.candidates
        g₂.materializedCommitIdsByBranch) := by
  rw [classifyLosingMaterializedCandidateCommits, classifyLosingMaterializedCandidateCommits,
    h.selectedBranchId, hg.materialized]
  cases r₂.selectedBranchId with
  | none => exact h
  | some selectedBranchId =>
    refine foldl_same (fun r₁ r₂ entry hr => ?_) _ h
    split
    · exact hr
    · exact foldl_same (fun r₁ r₂ id hr => classifyLosingCommit_same
        (find?_ineligibility_congr hg.candidates input entry.1) hr id) _ hr

/-! ### The whole call -/

theorem initialResult_same (h : g₁.Same g₂) (input : CanonicalizationInput)
    (pending : List PeeledMessage) {seen₁ seen₂ : List AlreadySeen} (hseen : seen₁.Perm seen₂) :
    (initialResult input g₁ seen₁).Same (initialResult (input.withPending pending) g₂ seen₂) := by
  have hselected := selectCanonicalBranch_rel (fun a b hab => And.left hab) h.candidates
    input.state.currentTipEpoch input.policy.convergence
  have htrace := selectCanonicalBranchTraced_eq h.candidates input.state.currentTipEpoch
    input.policy.convergence
  have hfilter : List.Forall₂ PermutedEvidence
      (g₁.candidates.filter fun c =>
        isBranchEligible input.state.currentTipEpoch c input.policy.convergence)
      (g₂.candidates.filter fun c =>
        isBranchEligible input.state.currentTipEpoch c input.policy.convergence) := by
    refine rel_filter (fun a b hab => ?_) h.candidates
    simp only [hab.1.isBranchEligible]
  have hid := optionMap_eq_of_rel hselected fun a b hab => hab.1.id
  have htip := optionMap_eq_of_rel hselected fun a b hab => hab.1.tipEpoch
  have hfork := optionMap_eq_of_rel hselected fun a b hab => hab.1.forkEpoch
  simp only [initialResult, CanonicalizationInput.withPending, selectedCommitIds, htrace,
    h.candidates.length_eq, hfilter.length_eq, hid, htip, hfork, h.commitPath]
  constructor <;> first | rfl | exact hseen

theorem convergenceStatus_congr (h : r₁.Same r₂) (input : CanonicalizationInput)
    (hperm : input.pendingMessages.Perm pending) :
    convergenceStatusForResult input input.pendingMessages r₁ =
      convergenceStatusForResult (input.withPending pending) pending r₂ := by
  have hunresolved : (input.pendingMessages.any fun m => !r₁.resolvedIds.contains m.messageId) =
      (pending.any fun m => !r₂.resolvedIds.contains m.messageId) := by
    rw [hperm.any_eq]
    congr 1
    funext m
    rw [h.resolvedIds.contains_eq]
  simp only [convergenceStatusForResult, hunresolved, hasBlockingConvergenceError, h.errors]
  rfl

theorem finishResult_same (h : r₁.Same r₂) (input : CanonicalizationInput)
    (hperm : input.pendingMessages.Perm pending) :
    { finishResult input r₁ with acceptedCommits := [] } =
        { finishResult (input.withPending pending) r₂ with acceptedCommits := [] } ∧
      (finishResult input r₁).acceptedCommits.Perm
        (finishResult (input.withPending pending) r₂).acceptedCommits := by
  have hstatus := convergenceStatus_congr h input hperm
  have hpending : (input.withPending pending).pendingMessages = pending := rfl
  have houtbound : (input.withPending pending).outboundIntents = input.outboundIntents := rfl
  simp only [finishResult, hpending, houtbound, ← hstatus]
  split
  · have hset : CanonicalizationResult.Same
        { r₁ with
          convergenceStatus := convergenceStatusForResult input input.pendingMessages r₁
          publishableOutboundMessages := input.outboundIntents }
        { r₂ with
          convergenceStatus := convergenceStatusForResult input input.pendingMessages r₁
          publishableOutboundMessages := input.outboundIntents } :=
      { h with convergenceStatus := rfl, publishable := rfl }
    exact ⟨hset.sort, hset.acceptedCommits⟩
  · have hset : CanonicalizationResult.Same
        { r₁ with
          convergenceStatus := convergenceStatusForResult input input.pendingMessages r₁
          queuedOutboundIntents := input.outboundIntents }
        { r₂ with
          convergenceStatus := convergenceStatusForResult input input.pendingMessages r₁
          queuedOutboundIntents := input.outboundIntents } :=
      { h with convergenceStatus := rfl, queued := rfl }
    exact ⟨hset.sort, hset.acceptedCommits⟩

theorem handleMessages_same (h : g₁.Same g₂) (input : CanonicalizationInput)
    (pending : List PeeledMessage) (hperm : l₁.Perm l₂) (hr : r₁.Same r₂) :
    (handleMessages (dispositionContext input g₁ r₁.selectedBranchId r₁.selectedTip) l₁ r₁).Same
      (handleMessages (dispositionContext (input.withPending pending) g₂ r₂.selectedBranchId
        r₂.selectedTip) l₂ r₂) := by
  rw [handleMessages_eq_foldl_push, handleMessages_eq_foldl_push]
  refine CanonicalizationResult.foldl_push_perm ?_ hr
  have hhandle : handleMessage (dispositionContext input g₁ r₁.selectedBranchId r₁.selectedTip) =
      handleMessage (dispositionContext (input.withPending pending) g₂ r₂.selectedBranchId
        r₂.selectedTip) := by
    funext message
    rw [hr.selectedBranchId, hr.selectedTip]
    exact handleMessage_congr h input pending _ _
  rw [hhandle]
  exact hperm.filterMap _

/-- **Arrival order does not matter.**  For every permutation of the pending
messages the result is the same, its accepted commits up to order. -/
theorem canonicalization_order_independent (input : CanonicalizationInput)
    (materialized : List MaterializedCandidate) (admitted : Bool)
    (shared : Option (ExtTreeSet String)) (pending : List PeeledMessage)
    (hids : IdsIdentify input.pendingMessages) (hperm : input.pendingMessages.Perm pending) :
    { canonicalizeInternal input materialized admitted shared with acceptedCommits := [] } =
        { canonicalizeInternal (input.withPending pending) materialized admitted shared with
          acceptedCommits := [] } ∧
      (canonicalizeInternal input materialized admitted shared).acceptedCommits.Perm
        (canonicalizeInternal (input.withPending pending) materialized admitted
          shared).acceptedCommits := by
  have hdedup := dedup_perm (isSeen input shared) hperm hids
  have hunique : IdsIdentify (dedup (isSeen input shared) input.pendingMessages).uniqueMessages :=
    fun a ha b hb => hids a (mem_of_mem_uniqueMessages ha) b (mem_of_mem_uniqueMessages hb)
  have hgraph := witnessedGraph_perm input hdedup.unique hunique materialized admitted
  have hinitial := initialResult_same hgraph input pending hdedup.seen
  have hhandled := handleMessages_same hgraph input pending hdedup.unique hinitial
  exact finishResult_same (classifyLosing_same hgraph input hhandled) input hperm

/-- A child commit before or after its parent: one instance. -/
theorem canonicalization_order_independent_chain :
    (canonicalizeInternal (batchInput [commitMessage "c2" 1 11 "b2" (some "b1"),
        commitMessage "c1" 1 10 "b1" none]) [] true none).acceptedCommits.Perm
      (canonicalizeInternal (batchInput [commitMessage "c1" 1 10 "b1" none,
        commitMessage "c2" 1 11 "b2" (some "b1")]) [] true none).acceptedCommits :=
  (canonicalization_order_independent
    (batchInput [commitMessage "c2" 1 11 "b2" (some "b1"), commitMessage "c1" 1 10 "b1" none])
    [] true none [commitMessage "c1" 1 10 "b1" none, commitMessage "c2" 1 11 "b2" (some "b1")]
    (by unfold IdsIdentify; decide) (List.Perm.swap _ _ [])).2

end Mdk
