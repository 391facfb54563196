/-
How much application traffic can move a selection.

* `witness_influence_bounded` — whatever messages are pending, no eligible branch
  is deeper than the selected one by more than the override; and copying the
  evidence of a message that takes part, under fresh ids and in any number,
  changes neither the selected branch nor the score of any branch.

The second half is about messages that survive deduplication.  A pending message
whose id was seen before takes no part in the selection, so a copy of it under a
fresh id is new evidence (`copy_of_seen_message_counts`).
-/
import Mdk.OrderIndependence

open Std (ExtTreeMap ExtTreeSet TransCmp)
open Comparison

namespace Mdk

open List

/-! ### Copies of evidence -/

/-- `copy` is an application message with the sender, the epoch and the branches
of `original`. -/
def CopiesEvidence (original copy : PeeledMessage) : Prop :=
  copy.sender = original.sender ∧ ∃ a b, copy.app? = some a ∧ original.app? = some b ∧
    a.epoch = b.epoch ∧ a.decryptsOnBranches = b.decryptsOnBranches

/-- `pending'` is `pending` with messages marked by `isCopy` put in anywhere: each
copies the evidence of a message of `admittedMessages`, under an id that is not pending. -/
structure AddsCopies (pending admittedMessages : List PeeledMessage) (isCopy : PeeledMessage → Bool)
    (pending' : List PeeledMessage) : Prop where
  rest : (pending'.filter fun m => !isCopy m) = pending
  evidence : ∀ m ∈ pending', isCopy m = true → ∃ o ∈ admittedMessages, CopiesEvidence o m
  freshId : ∀ m ∈ pending', isCopy m = true → ∀ p ∈ pending, p.messageId ≠ m.messageId

variable {policy : CanonicalizationPolicy} {c : BranchCandidate}

theorem CopiesEvidence.witnessesFrom {original copy : PeeledMessage}
    (h : CopiesEvidence original copy) :
    witnessesFrom policy c copy = witnessesFrom policy c original := by
  obtain ⟨hsender, a, b, ha, hb, hepoch, hbranches⟩ := h
  simp only [Mdk.witnessesFrom, ha, hb, hsender, hepoch, hbranches]

theorem CopiesEvidence.commit? {original copy : PeeledMessage}
    (h : CopiesEvidence original copy) : copy.commit? = none := by
  obtain ⟨-, a, -, ha, -⟩ := h
  rw [PeeledMessage.app?] at ha
  rw [PeeledMessage.commit?]
  cases hkind : copy.kind with
  | commit edge => rw [hkind] at ha; cases ha
  | proposal branchId => rfl
  | appMessage app => rfl

/-! ### Deduplication with copies in between -/

/-- The deduplication of `pending'` and of `pending`, after the same messages. -/
structure DedupWithCopies (isCopy : PeeledMessage → Bool) (isPendingId : String → Prop)
    (d' d : Dedup) : Prop where
  unique : (d'.uniqueMessages.filter fun m => !isCopy m) = d.uniqueMessages
  observed : ∀ id, isPendingId id → d'.batchObservedIds.contains id = d.batchObservedIds.contains id

variable {isCopy : PeeledMessage → Bool} {seen : String → Bool} {d' d : Dedup}

theorem dedupStep_copy {isPendingId : String → Prop} {message : PeeledMessage}
    (h : DedupWithCopies isCopy isPendingId d' d) (hcopy : isCopy message = true)
    (hfresh : ¬ isPendingId message.messageId) :
    DedupWithCopies isCopy isPendingId (dedupStep seen d' message) d := by
  have hunique : ((d'.uniqueMessages ++ [message]).filter fun m => !isCopy m) =
      d.uniqueMessages := by
    rw [filter_append, h.unique]
    simp [hcopy]
  rw [dedupStep]
  split
  · exact ⟨hunique, h.observed⟩
  · split
    · exact ⟨h.unique, h.observed⟩
    · refine ⟨hunique, fun id hid => ?_⟩
      have hne : compare message.messageId id ≠ .eq := fun heq =>
        hfresh (Std.compare_eq_iff_eq.mp heq ▸ hid)
      rw [ExtTreeSet.contains_insert, h.observed id hid]
      simp [hne]

theorem dedupStep_pending {isPendingId : String → Prop} {message : PeeledMessage}
    (h : DedupWithCopies isCopy isPendingId d' d) (hcopy : isCopy message = false)
    (hpending : isPendingId message.messageId) :
    DedupWithCopies isCopy isPendingId (dedupStep seen d' message) (dedupStep seen d message) := by
  have hunique : ((d'.uniqueMessages ++ [message]).filter fun m => !isCopy m) =
      d.uniqueMessages ++ [message] := by
    rw [filter_append, h.unique]
    simp [hcopy]
  rw [dedupStep, dedupStep, h.observed message.messageId hpending]
  split
  · exact ⟨hunique, h.observed⟩
  · split
    · exact ⟨h.unique, h.observed⟩
    · refine ⟨hunique, fun id hid => ?_⟩
      rw [ExtTreeSet.contains_insert, ExtTreeSet.contains_insert, h.observed id hid]

theorem foldl_dedupStep_copies (seen : String → Bool) (isCopy : PeeledMessage → Bool)
    (isPendingId : String → Prop) (l : List PeeledMessage)
    (hl : ∀ m ∈ l, if isCopy m then ¬ isPendingId m.messageId else isPendingId m.messageId)
    (h : DedupWithCopies isCopy isPendingId d' d) :
    DedupWithCopies isCopy isPendingId (l.foldl (dedupStep seen) d')
      ((l.filter fun m => !isCopy m).foldl (dedupStep seen) d) := by
  induction l generalizing d' d with
  | nil => exact h
  | cons message l ih =>
    have hrest := fun m hm => hl m (mem_cons_of_mem _ hm)
    have hmessage := hl message mem_cons_self
    cases hcopy : isCopy message with
    | true =>
      rw [hcopy, if_pos rfl] at hmessage
      rw [filter_cons_of_neg (by simp [hcopy]), foldl_cons]
      exact ih hrest (dedupStep_copy h hcopy hmessage)
    | false =>
      rw [hcopy, if_neg Bool.false_ne_true] at hmessage
      rw [filter_cons_of_pos (by simp [hcopy]), foldl_cons, foldl_cons]
      exact ih hrest (dedupStep_pending h hcopy hmessage)

/-- Copies come and go without touching what deduplication makes of the rest. -/
theorem dedup_copies {pending admittedMessages pending' : List PeeledMessage}
    (h : AddsCopies pending admittedMessages isCopy pending') :
    ((dedup seen pending').uniqueMessages.filter fun m => !isCopy m) =
      (dedup seen pending).uniqueMessages := by
  have hmessages : ∀ m ∈ pending', if isCopy m then ¬ ∃ p ∈ pending, p.messageId = m.messageId
      else ∃ p ∈ pending, p.messageId = m.messageId := by
    intro m hm
    cases hcopy : isCopy m with
    | true =>
      rw [if_pos rfl]
      rintro ⟨p, hp, hid⟩
      exact h.freshId m hm hcopy p hp hid
    | false =>
      rw [if_neg Bool.false_ne_true]
      refine ⟨m, ?_, rfl⟩
      rw [← h.rest]
      exact mem_filter.mpr ⟨hm, by simp [hcopy]⟩
  have hstart : DedupWithCopies isCopy (fun id => ∃ p ∈ pending, p.messageId = id) {} {} :=
    ⟨rfl, fun _ _ => rfl⟩
  have hfold := foldl_dedupStep_copies seen isCopy _ pending' hmessages hstart
  rw [h.rest] at hfold
  exact hfold.unique

/-! ### The same evidence -/

theorem sameEvidence_refl : SameEvidence c c :=
  ⟨rfl, rfl, rfl, rfl, rfl, rfl, fun _ => Iff.rfl⟩

variable {unique unique' : List PeeledMessage}

theorem sortedCommits_copies (hrest : (unique'.filter fun m => !isCopy m) = unique)
    (hcopies : ∀ m ∈ unique', isCopy m = true → m.commit? = none) :
    sortedCommits unique' = sortedCommits unique := by
  rw [sortedCommits, sortedCommits, ← hrest, filter_filter]
  congr 1
  refine filter_congr fun m hm => ?_
  cases hcopy : isCopy m with
  | true => simp [hcopies m hm hcopy]
  | false => simp

theorem mem_flatMap_copies (hrest : (unique'.filter fun m => !isCopy m) = unique)
    (hcopies : ∀ m ∈ unique', isCopy m = true → ∃ o ∈ unique, CopiesEvidence o m) (w : AppWitness) :
    w ∈ unique'.flatMap (witnessesFrom policy c) ↔ w ∈ unique.flatMap (witnessesFrom policy c) := by
  simp only [mem_flatMap]
  constructor
  · rintro ⟨m, hm, hw⟩
    cases hcopy : isCopy m with
    | true =>
      obtain ⟨o, ho, hevidence⟩ := hcopies m hm hcopy
      exact ⟨o, ho, hevidence.witnessesFrom ▸ hw⟩
    | false =>
      refine ⟨m, ?_, hw⟩
      rw [← hrest]
      exact mem_filter.mpr ⟨hm, by simp [hcopy]⟩
  · rintro ⟨m, hm, hw⟩
    rw [← hrest] at hm
    exact ⟨m, mem_of_mem_filter hm, hw⟩

theorem witnessedGraph_copies (input : CanonicalizationInput)
    (hrest : (unique'.filter fun m => !isCopy m) = unique)
    (hcopies : ∀ m ∈ unique', isCopy m = true → ∃ o ∈ unique, CopiesEvidence o m)
    (materialized : List MaterializedCandidate) (admitted : Bool) :
    List.Forall₂ SameEvidence (witnessedGraph input unique' materialized admitted).candidates
      (witnessedGraph input unique materialized admitted).candidates := by
  have hgraph : materializeCandidateGraph input unique' materialized =
      materializeCandidateGraph input unique materialized := by
    rw [materializeCandidateGraph, materializeCandidateGraph, sortedCommits_copies hrest]
    intro m hm hcopy
    obtain ⟨o, -, hevidence⟩ := hcopies m hm hcopy
    exact hevidence.commit?
  have hnodup := nodup_graph_ids input unique materialized
  rw [witnessedGraph, witnessedGraph, hgraph]
  generalize materializeCandidateGraph input unique materialized = graph at hnodup
  cases admitted with
  | false => exact forall₂_same.mpr fun c _ => sameEvidence_refl
  | true =>
    simp only [if_true, attachAppWitnesses]
    rw [foldl_attachAppWitness_eq_map unique' hnodup, foldl_attachAppWitness_eq_map unique hnodup,
      forall₂_map_left_iff, forall₂_map_right_iff]
    refine forall₂_same.mpr fun c _ => ⟨rfl, rfl, rfl, rfl, rfl, rfl, fun w => ?_⟩
    simp only [BranchCandidate.addWitnesses, mem_append]
    rw [mem_flatMap_copies hrest hcopies]

/-! ### The bound -/

/-- The scores a result was selected by, branch by branch. -/
def CanonicalizationResult.scores (r : CanonicalizationResult) :
    Option (List (String × BranchScore)) :=
  r.selectionTrace.map fun trace => trace.candidates.map fun c => (c.branchId, c.score)

theorem mem_traced_candidates {tip : UInt64} {cs : List BranchCandidate}
    {policy : ConvergencePolicy} {e : CandidateEvaluation}
    (h : e ∈ (selectCanonicalBranchTraced tip cs policy).candidates) :
    ∃ b ∈ cs, e = evaluateCandidate tip policy b := by
  obtain ⟨b, hb, rfl⟩ := mem_map.mp h
  exact ⟨b, mem_sortBy.mp hb, rfl⟩

theorem traced_scores_eq {cs₁ cs₂ : List BranchCandidate}
    (h : List.Forall₂ SameEvidence cs₁ cs₂) (tip : UInt64) (policy : ConvergencePolicy) :
    ((selectCanonicalBranchTraced tip cs₁ policy).candidates.map fun c => (c.branchId, c.score)) =
      (selectCanonicalBranchTraced tip cs₂ policy).candidates.map
        fun c => (c.branchId, c.score) := by
  have hordered : List.Forall₂ SameEvidence (sortBy (compareOn BranchCandidate.id) cs₁)
      (sortBy (compareOn BranchCandidate.id) cs₂) := by
    refine sortBy_rel (fun a b a' b' ha hb => ?_) h
    rw [compareOn, compareOn, ha.id, hb.id]
  simp only [selectCanonicalBranchTraced, map_map]
  refine map_eq_of_rel hordered fun a b hab => ?_
  simp only [Function.comp, evaluateCandidate, hab.id, hab.score]

theorem canonicalizationGraph_copies {input : CanonicalizationInput}
    (materialized : List MaterializedCandidate) (admitted : Bool)
    {shared : Option (ExtTreeSet String)} {pending' : List PeeledMessage}
    (h : AddsCopies input.pendingMessages
      (dedup (isSeen input shared) input.pendingMessages).uniqueMessages isCopy pending') :
    List.Forall₂ SameEvidence
      (canonicalizationGraph (input.withPending pending') materialized admitted shared).candidates
      (canonicalizationGraph input materialized admitted shared).candidates := by
  refine witnessedGraph_copies input (dedup_copies h) (fun m hm hcopy => ?_) materialized admitted
  exact h.evidence m (mem_of_mem_uniqueMessages hm) hcopy

/-- **Bounded witness influence.**  For any pending messages, every eligible branch
is at most the override deeper than the selected one; and copies of the evidence
of messages that take part change neither the selection nor a score. -/
theorem witness_influence_bounded (input : CanonicalizationInput)
    (materialized : List MaterializedCandidate) (admitted : Bool)
    (shared : Option (ExtTreeSet String)) :
    let r := canonicalizeInternal input materialized admitted shared
    (∀ tip fork trace, r.selectedTip = some tip → r.selectedForkEpoch = some fork →
      r.selectionTrace = some trace → ∀ b ∈ trace.candidates, b.eligible = true →
        b.tipEpoch.toNat - b.forkEpoch.toNat ≤ tip.toNat - fork.toNat +
          input.policy.convergence.maxWitnessOverrideDepth.toNat) ∧
    ∀ isCopy pending', AddsCopies input.pendingMessages
        (dedup (isSeen input shared) input.pendingMessages).uniqueMessages isCopy pending' →
      let r' := canonicalizeInternal (input.withPending pending') materialized admitted shared
      r'.selectedBranchId = r.selectedBranchId ∧ r'.selectedTip = r.selectedTip ∧
        r'.selectedForkEpoch = r.selectedForkEpoch ∧ r'.scores = r.scores := by
  intro r
  obtain ⟨hid, htip, hfork, htrace⟩ :=
    canonicalizeInternal_selected input materialized admitted shared
  constructor
  · intro tip fork trace hrtip hrfork hrtrace e he heligible
    obtain ⟨a, ha, rfl⟩ := Option.map_eq_some_iff.mp (htip.symm.trans hrtip)
    have hforkEq : a.forkEpoch = fork := by
      have h := hfork.symm.trans hrfork
      rw [ha] at h
      exact Option.some.inj h
    rw [← Option.some.inj (htrace.symm.trans hrtrace)] at he
    obtain ⟨b, hb, rfl⟩ := mem_traced_candidates he
    have hdepth := selectCanonicalBranch_depth ha hb heligible
    rw [← hforkEq]
    exact hdepth
  · intro isCopy pending' hcopies
    obtain ⟨hid', htip', hfork', htrace'⟩ :=
      canonicalizeInternal_selected (input.withPending pending') materialized admitted shared
    have hgraph := canonicalizationGraph_copies materialized admitted hcopies
    have hselected := selectCanonicalBranch_rel (fun _ _ hab => hab) hgraph
      input.state.currentTipEpoch input.policy.convergence
    refine ⟨?_, ?_, ?_, ?_⟩
    · rw [hid', hid]
      exact optionMap_eq_of_rel hselected fun _ _ hab => hab.id
    · rw [htip', htip]
      exact optionMap_eq_of_rel hselected fun _ _ hab => hab.tipEpoch
    · rw [hfork', hfork]
      exact optionMap_eq_of_rel hselected fun _ _ hab => hab.forkEpoch
    · rw [CanonicalizationResult.scores, CanonicalizationResult.scores, htrace', htrace]
      exact congrArg some
        (traced_scores_eq hgraph input.state.currentTipEpoch input.policy.convergence)

/-- A copy of a message that takes part, put before it. -/
theorem witness_influence_bounded_copy :
    (canonicalizeInternal (batchInput [commitMessage "c1" 2 10 "a" none,
        appMessage "m1" 7 11 ["a"] false, appMessage "m0" 7 11 ["a"] false]) [] true
        none).selectedBranchId =
      (canonicalizeInternal (batchInput [commitMessage "c1" 2 10 "a" none,
        appMessage "m0" 7 11 ["a"] false]) [] true none).selectedBranchId :=
  ((witness_influence_bounded (batchInput [commitMessage "c1" 2 10 "a" none,
      appMessage "m0" 7 11 ["a"] false]) [] true none).2 (fun m => m.messageId == "m1")
    [commitMessage "c1" 2 10 "a" none, appMessage "m1" 7 11 ["a"] false,
      appMessage "m0" 7 11 ["a"] false]
    { rest := by decide
      evidence := by
        intro m hm hcopy
        refine ⟨appMessage "m0" 7 11 ["a"] false, by decide, ?_⟩
        obtain rfl : m = appMessage "m1" 7 11 ["a"] false := by
          revert m
          decide
        exact ⟨rfl, _, _, rfl, rfl, rfl, rfl⟩
      freshId := by decide }).1

/-- The batch of a group that has seen the id `m0` before. -/
def seenInput (messages : List PeeledMessage) : CanonicalizationInput :=
  { batchInput messages with state := ⟨10, 5, 0, .ofList ["m0"]⟩ }

/-- A copy of a pending message that is deduplicated away is new evidence: it
moves the selection from one branch to the other. -/
theorem copy_of_seen_message_counts :
    CopiesEvidence (appMessage "m0" 7 11 ["a"] false) (appMessage "m1" 7 11 ["a"] false) ∧
      isSeen (seenInput []) none "m1" = false ∧
      (canonicalizeInternal (seenInput [commitMessage "c1" 2 10 "a" none,
        commitMessage "c2" 1 10 "b" none, appMessage "m0" 7 11 ["a"] false]) [] true
        none).selectedBranchId = some "b" ∧
      (canonicalizeInternal (seenInput [commitMessage "c1" 2 10 "a" none,
        commitMessage "c2" 1 10 "b" none, appMessage "m0" 7 11 ["a"] false,
        appMessage "m1" 7 11 ["a"] false]) [] true none).selectedBranchId = some "a" :=
  ⟨⟨rfl, _, _, rfl, rfl, rfl, rfl⟩, by decide, by decide, by decide⟩

end Mdk
