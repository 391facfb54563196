/-
Branch selection, `crates/cgka-engine/src/convergence.rs`.

A candidate branch is scored by its depth, raised by at most
`maxWitnessOverrideDepth` when enough distinct senders were seen on it, and the
eligible branch with the greatest score is selected.

* `SameEvidence.score` — the score of a branch sees its witnesses only as a set;
* `selectCanonicalBranch_rel` — so does selection: candidate lists that agree
  branch by branch have winners that agree;
* `selectCanonicalBranch_depth` — witnesses never let a branch win over one
  that is deeper by more than the override.
-/
import Mdk.MachineInt
import Mdk.Comparison

open Std (ExtTreeMap ExtTreeSet TransCmp)
open Comparison

namespace Mdk

/-! ### Policy -/

def v1MaxRewindCommits : UInt64 := 5
def v1WitnessQuorumSendersPerEpoch : Nat := 2
def v1WitnessQuorumEpochs : Nat := 1
def v1MaxWitnessOverrideDepth : UInt64 := 1

structure ConvergencePolicy where
  maxRewindCommits : UInt64 := v1MaxRewindCommits
  witnessQuorumSendersPerEpoch : Nat := v1WitnessQuorumSendersPerEpoch
  witnessQuorumEpochs : Nat := v1WitnessQuorumEpochs
  maxWitnessOverrideDepth : UInt64 := v1MaxWitnessOverrideDepth
deriving DecidableEq, Repr

/-! ### Branches and scores -/

/-- The derived order of the source: privileged commits come first. -/
inductive CommitOrderingPriority where
  | privileged
  | ordinary
deriving DecidableEq, Repr

instance : Ord CommitOrderingPriority := ⟨compareOn CommitOrderingPriority.ctorIdx⟩

instance : Std.TransOrd CommitOrderingPriority :=
  inferInstanceAs (TransCmp (compareOn CommitOrderingPriority.ctorIdx))

/-- `[u8; 32]`. -/
abbrev Digest := Vector UInt8 32

instance : Std.TransOrd Digest := Vector.instTransOrd

structure AppWitness where
  epoch : UInt64
  sender : List UInt8
deriving DecidableEq, Repr

structure BranchCandidate where
  id : String
  forkEpoch : UInt64
  tipEpoch : UInt64
  tipPriority : CommitOrderingPriority
  tipCommitter : List UInt8
  tipDigest : Digest
  appWitnesses : List AppWitness
deriving DecidableEq, Repr

structure BranchScore where
  validCommitDepth : UInt64
  effectiveCommitDepth : UInt64
  witnessQuorumMet : Bool
  appWitnessScore : Nat
  tipPriority : CommitOrderingPriority
  tipCommitter : List UInt8
  tipDigest : Digest
deriving DecidableEq, Repr

variable (witnesses : List AppWitness)

/-- The senders seen in each epoch. -/
def witnessesByEpoch : ExtTreeMap UInt64 (ExtTreeSet (List UInt8)) :=
  witnesses.foldl (fun byEpoch witness =>
    byEpoch.alter witness.epoch fun senders => some ((senders.getD ∅).insert witness.sender)) ∅

def witnessQuorumMet (policy : ConvergencePolicy) : Bool :=
  -- A threshold of zero switches the quorum off instead of making it free.
  if policy.witnessQuorumSendersPerEpoch = 0 ∨ policy.witnessQuorumEpochs = 0 then false
  else
    decide (policy.witnessQuorumEpochs ≤
      ((witnessesByEpoch witnesses).values.filter fun senders =>
        decide (policy.witnessQuorumSendersPerEpoch ≤ senders.size)).length)

def appWitnessScore (policy : ConvergencePolicy) : Nat :=
  -- An epoch counts for no more than its quorum.
  ((witnessesByEpoch witnesses).values.map fun senders =>
    min senders.size policy.witnessQuorumSendersPerEpoch).sum

variable (branch : BranchCandidate)

def witnessDepthBoost (policy : ConvergencePolicy) : UInt64 :=
  if witnessQuorumMet branch.appWitnesses policy then policy.maxWitnessOverrideDepth else 0

def BranchCandidate.score (policy : ConvergencePolicy) :
    BranchScore where
  validCommitDepth := branch.tipEpoch.saturatingSub branch.forkEpoch
  effectiveCommitDepth :=
    (branch.tipEpoch.saturatingSub branch.forkEpoch).saturatingAdd
      (witnessDepthBoost branch policy)
  witnessQuorumMet := witnessQuorumMet branch.appWitnesses policy
  appWitnessScore := appWitnessScore branch.appWitnesses policy
  tipPriority := branch.tipPriority
  tipCommitter := branch.tipCommitter
  tipDigest := branch.tipDigest

/-! ### Selection -/

variable (currentTipEpoch : UInt64)

def isBranchEligible (branch : BranchCandidate) (policy : ConvergencePolicy) : Bool :=
  decide (currentTipEpoch.saturatingSub branch.forkEpoch ≤ policy.maxRewindCommits)

/-- The last three rules favour the smaller value. -/
def compareScores (a b : BranchScore) : Ordering :=
  (compare a.effectiveCommitDepth b.effectiveCommitDepth).then <|
  (compare a.witnessQuorumMet b.witnessQuorumMet).then <|
  (compare a.appWitnessScore b.appWitnessScore).then <|
  (compare b.tipPriority a.tipPriority).then <|
  (compare b.tipCommitter a.tipCommitter).then <|
  compare b.tipDigest a.tipDigest

/-- The order of two branches under a policy. -/
def compareBranches (policy : ConvergencePolicy) (a b : BranchCandidate) : Ordering :=
  compareScores (a.score policy) (b.score policy)

variable (candidates : List BranchCandidate)

section

variable (policy : ConvergencePolicy)

def selectCanonicalBranch : Option BranchCandidate :=
  maxBy (compareBranches policy)
    (candidates.filter fun candidate => isBranchEligible currentTipEpoch candidate policy)

/-! ### The audit trace of a selection -/

def tipPriorityStr : CommitOrderingPriority → String
  | .ordinary => "ordinary"
  | .privileged => "privileged"

structure CandidateEvaluation where
  branchId : String
  forkEpoch : UInt64
  tipEpoch : UInt64
  tipPriority : CommitOrderingPriority
  tipCommitter : List UInt8
  tipDigest : Digest
  appWitnesses : List AppWitness
  eligible : Bool
  rejectionReasons : List String
  score : BranchScore
deriving DecidableEq, Repr

structure RuleEvaluation where
  ruleName : String
  winnerBranchId : String
  otherBranchId : String
  winnerValue : String
  otherValue : String
  decisive : Bool
deriving DecidableEq, Repr

structure BranchSelectionTrace where
  selectedBranchId : Option String
  candidates : List CandidateEvaluation
  ruleTrace : List RuleEvaluation
  losingBranchIds : List String
deriving DecidableEq, Repr

/-- `hex::encode`: two lower-case digits a byte. -/
def hexEncode (bytes : List UInt8) : String :=
  String.join (bytes.map fun b =>
    String.ofList [Nat.digitChar (b.toNat / 16), Nat.digitChar (b.toNat % 16)])

/-- The rules of `compareScores`, each with the two values it compares. -/
def ruleEntries (winner other : BranchScore) : List (String × Ordering × String × String) :=
  [("effective_commit_depth", compare winner.effectiveCommitDepth other.effectiveCommitDepth,
      toString winner.effectiveCommitDepth, toString other.effectiveCommitDepth),
    ("witness_quorum_met", compare winner.witnessQuorumMet other.witnessQuorumMet,
      toString winner.witnessQuorumMet, toString other.witnessQuorumMet),
    ("app_witness_score", compare winner.appWitnessScore other.appWitnessScore,
      toString winner.appWitnessScore, toString other.appWitnessScore),
    ("tip_priority", compare other.tipPriority winner.tipPriority,
      tipPriorityStr winner.tipPriority, tipPriorityStr other.tipPriority),
    ("tip_committer", compare other.tipCommitter winner.tipCommitter,
      hexEncode winner.tipCommitter, hexEncode other.tipCommitter),
    ("tip_digest", compare other.tipDigest winner.tipDigest,
      hexEncode winner.tipDigest.toList, hexEncode other.tipDigest.toList)]

/-- The walk over the rules: `decided` is set by the first one that separates. -/
def traceRules (winnerId otherId : String) :
    Bool → List (String × Ordering × String × String) → List RuleEvaluation
  | _, [] => []
  | decided, (ruleName, ordering, winnerValue, otherValue) :: rest =>
    let decisive := !decided && ordering != .eq
    ⟨ruleName, winnerId, otherId, winnerValue, otherValue, decisive⟩ ::
      traceRules winnerId otherId (decided || decisive) rest

def buildRuleTrace (winner other : BranchScore) (winnerId otherId : String) :
    List RuleEvaluation :=
  traceRules winnerId otherId false (ruleEntries winner other)

def compareWitnesses (a b : AppWitness) : Ordering :=
  (compare a.epoch b.epoch).then (compare a.sender b.sender)

def evaluateCandidate (candidate : BranchCandidate) : CandidateEvaluation :=
  let eligible := isBranchEligible currentTipEpoch candidate policy
  { branchId := candidate.id
    forkEpoch := candidate.forkEpoch
    tipEpoch := candidate.tipEpoch
    tipPriority := candidate.tipPriority
    tipCommitter := candidate.tipCommitter
    tipDigest := candidate.tipDigest
    appWitnesses := sortBy compareWitnesses candidate.appWitnesses
    eligible := eligible
    rejectionReasons := if eligible then [] else ["beyond_rewind_horizon"]
    score := candidate.score policy }

def selectCanonicalBranchTraced : BranchSelectionTrace :=
  let ordered := sortBy (compareOn BranchCandidate.id) candidates
  let evaluations := ordered.map (evaluateCandidate currentTipEpoch policy)
  let selected := selectCanonicalBranch currentTipEpoch candidates policy
  let selectedBranchId := selected.map BranchCandidate.id
  -- The runner-up is the best eligible candidate other than the winner.
  let ruleTrace :=
    match selected with
    | none => []
    | some winner =>
      let runnerUp := maxBy (compareBranches policy)
        ((ordered.filter fun candidate => isBranchEligible currentTipEpoch candidate policy).filter
          fun candidate => candidate.id != winner.id)
      match runnerUp with
      | none => []
      | some other =>
        buildRuleTrace (winner.score policy) (other.score policy) winner.id other.id
  { selectedBranchId := selectedBranchId
    candidates := evaluations
    ruleTrace := ruleTrace
    losingBranchIds := (evaluations.filter fun evaluation =>
      some evaluation.branchId != selectedBranchId).map CandidateEvaluation.branchId }

end

/-! ### A score sees its witnesses as a set -/

variable (byEpoch : ExtTreeMap UInt64 (ExtTreeSet (List UInt8)))

theorem mem_witnessesByEpoch_foldl (epoch : UInt64) (sender : List UInt8) :
    sender ∈ ((witnesses.foldl (fun byEpoch witness =>
        byEpoch.alter witness.epoch fun senders =>
          some ((senders.getD ∅).insert witness.sender)) byEpoch)[epoch]?.getD ∅) ↔
      sender ∈ byEpoch[epoch]?.getD ∅ ∨ ⟨epoch, sender⟩ ∈ witnesses := by
  induction witnesses generalizing byEpoch with
  | nil => simp
  | cons w ws ih =>
    rw [List.foldl_cons, ih, ExtTreeMap.getElem?_alter]
    -- Only the entry of the witness's own epoch changes.
    by_cases hw : w.epoch = epoch
    · subst hw
      have hsame : (⟨w.epoch, sender⟩ : AppWitness) = w ↔ w.sender = sender := by
        cases w
        simp [eq_comm]
      simp [ExtTreeSet.mem_insert, hsame]
      tauto
    · have hne : (⟨epoch, sender⟩ : AppWitness) ≠ w := by
        rintro rfl
        exact hw rfl
      simp [hw, hne]

theorem isSome_witnessesByEpoch_foldl (epoch : UInt64) :
    (witnesses.foldl (fun byEpoch witness =>
        byEpoch.alter witness.epoch fun senders =>
          some ((senders.getD ∅).insert witness.sender)) byEpoch)[epoch]?.isSome ↔
      byEpoch[epoch]?.isSome ∨ ∃ w ∈ witnesses, w.epoch = epoch := by
  induction witnesses generalizing byEpoch with
  | nil => simp
  | cons w ws ih =>
    rw [List.foldl_cons, ih, ExtTreeMap.getElem?_alter]
    by_cases hw : w.epoch = epoch
    · simp [hw]
    · simp [hw]

/-- Lists with the same witnesses, in any order and number, are counted alike. -/
theorem witnessesByEpoch_congr {l₁ l₂ : List AppWitness} (h : ∀ w, w ∈ l₁ ↔ w ∈ l₂) :
    witnessesByEpoch l₁ = witnessesByEpoch l₂ := by
  refine ExtTreeMap.ext_getElem? fun epoch => ?_
  -- An epoch without senders is absent, so presence and senders are compared apart.
  have hsome : (witnessesByEpoch l₁)[epoch]?.isSome ↔ (witnessesByEpoch l₂)[epoch]?.isSome := by
    rw [witnessesByEpoch, witnessesByEpoch, isSome_witnessesByEpoch_foldl,
      isSome_witnessesByEpoch_foldl]
    simp only [h]
  have hmem : (witnessesByEpoch l₁)[epoch]?.getD ∅ = (witnessesByEpoch l₂)[epoch]?.getD ∅ := by
    refine ExtTreeSet.ext_mem fun sender => ?_
    rw [witnessesByEpoch, witnessesByEpoch, mem_witnessesByEpoch_foldl,
      mem_witnessesByEpoch_foldl, h]
  cases h₁ : (witnessesByEpoch l₁)[epoch]? with
  | none =>
    rw [h₁] at hsome
    cases h₂ : (witnessesByEpoch l₂)[epoch]? with
    | none => rfl
    | some s => simp [h₂] at hsome
  | some s =>
    rw [h₁] at hsome hmem
    cases h₂ : (witnessesByEpoch l₂)[epoch]? with
    | none => simp [h₂] at hsome
    | some s' => simpa [h₂] using hmem

/-- Two branches that differ at most in the order and number of their witnesses. -/
structure SameEvidence (a b : BranchCandidate) : Prop where
  id : a.id = b.id
  forkEpoch : a.forkEpoch = b.forkEpoch
  tipEpoch : a.tipEpoch = b.tipEpoch
  tipPriority : a.tipPriority = b.tipPriority
  tipCommitter : a.tipCommitter = b.tipCommitter
  tipDigest : a.tipDigest = b.tipDigest
  witnesses : ∀ w, w ∈ a.appWitnesses ↔ w ∈ b.appWitnesses

variable {a b : BranchCandidate}

theorem SameEvidence.score (h : SameEvidence a b) (policy : ConvergencePolicy) :
    a.score policy = b.score policy := by
  have hby := witnessesByEpoch_congr h.witnesses
  have hquorum : witnessQuorumMet a.appWitnesses policy =
      witnessQuorumMet b.appWitnesses policy := by
    simp only [witnessQuorumMet, hby]
  have hscore : appWitnessScore a.appWitnesses policy =
      appWitnessScore b.appWitnesses policy := by
    simp only [appWitnessScore, hby]
  simp only [BranchCandidate.score, witnessDepthBoost, hquorum, hscore, h.forkEpoch, h.tipEpoch,
    h.tipPriority, h.tipCommitter, h.tipDigest]

theorem SameEvidence.isBranchEligible (h : SameEvidence a b) (tip : UInt64)
    (policy : ConvergencePolicy) :
    isBranchEligible tip a policy = isBranchEligible tip b policy := by
  rw [Mdk.isBranchEligible, Mdk.isBranchEligible, h.forkEpoch]

variable {policy : ConvergencePolicy}

theorem SameEvidence.compareBranches (a b a' b' : BranchCandidate) (ha : SameEvidence a a')
    (hb : SameEvidence b b') : compareBranches policy a b = compareBranches policy a' b' := by
  rw [Mdk.compareBranches, Mdk.compareBranches, ha.score, hb.score]

theorem selectCanonicalBranch_rel {R : BranchCandidate → BranchCandidate → Prop}
    (hR : ∀ a b, R a b → SameEvidence a b) {cs₁ cs₂ : List BranchCandidate}
    (h : List.Forall₂ R cs₁ cs₂) (tip : UInt64) (policy : ConvergencePolicy) :
    Option.Rel R (selectCanonicalBranch tip cs₁ policy) (selectCanonicalBranch tip cs₂ policy) := by
  refine maxBy_rel (fun a b a' b' ha hb =>
    SameEvidence.compareBranches a b a' b' (hR a a' ha) (hR b b' hb)) ?_
  -- Eligibility reads the fork epoch, which the relation keeps.
  refine List.rel_filter (fun a b hab => ?_) h
  show isBranchEligible tip a policy = true ↔ isBranchEligible tip b policy = true
  rw [(hR a b hab).isBranchEligible]

/-! ### The selected branch is a greatest one -/

instance : TransCmp compareScores :=
  inferInstanceAs (TransCmp (compareLex (compareOn BranchScore.effectiveCommitDepth)
    (compareLex (compareOn BranchScore.witnessQuorumMet)
    (compareLex (compareOn BranchScore.appWitnessScore)
    (compareLex (fun a b => compareOn BranchScore.tipPriority b a)
    (compareLex (fun a b => compareOn BranchScore.tipCommitter b a)
      (fun a b => compareOn BranchScore.tipDigest b a)))))))

instance (policy : ConvergencePolicy) : TransCmp (compareBranches policy) where
  eq_swap {a b} := @Std.OrientedCmp.eq_swap _ compareScores _ (a.score policy) (b.score policy)
  isLE_trans {a b c} :=
    @TransCmp.isLE_trans _ compareScores _ (a.score policy) (b.score policy) (c.score policy)

theorem selectCanonicalBranch_mem {tip : UInt64} {cs : List BranchCandidate} {a : BranchCandidate}
    (h : selectCanonicalBranch tip cs policy = some a) :
    a ∈ cs ∧ isBranchEligible tip a policy = true :=
  List.mem_filter.mp (maxBy_mem h)

theorem le_of_compareBranches_isLE (h : (compareBranches policy b a).isLE = true) :
    (b.score policy).effectiveCommitDepth ≤ (a.score policy).effectiveCommitDepth := by
  have hle := Ordering.isLE_left_of_isLE_then h
  rwa [Std.isLE_compare] at hle

/-- The depth a branch reaches by its commits alone. -/
def BranchCandidate.depth : Nat :=
  branch.tipEpoch.toNat - branch.forkEpoch.toNat

open BranchCandidate

theorem depth_le_effectiveCommitDepth (branch : BranchCandidate) :
    branch.depth ≤ (branch.score policy).effectiveCommitDepth.toNat := by
  simp only [score, depth]
  rw [UInt64.toNat_saturatingAdd, UInt64.toNat_saturatingSub]
  -- The sum saturates at `u64::MAX`, which no depth exceeds.
  have hlt := branch.tipEpoch.toNat_lt
  omega

theorem effectiveCommitDepth_le (branch : BranchCandidate) :
    (branch.score policy).effectiveCommitDepth.toNat ≤
      branch.depth + policy.maxWitnessOverrideDepth.toNat := by
  simp only [score, depth]
  rw [UInt64.toNat_saturatingAdd, UInt64.toNat_saturatingSub, witnessDepthBoost]
  by_cases h : witnessQuorumMet branch.appWitnesses policy = true
  · rw [if_pos h]
    omega
  · rw [if_neg h]
    have hzero : (0 : UInt64).toNat = 0 := rfl
    omega

/-- Witnesses cannot make a branch win over one that is deeper by more than the
override. -/
theorem selectCanonicalBranch_depth {tip : UInt64} {cs : List BranchCandidate}
    (h : selectCanonicalBranch tip cs policy = some a) (hb : b ∈ cs)
    (heligible : isBranchEligible tip b policy = true) :
    b.depth ≤ a.depth + policy.maxWitnessOverrideDepth.toNat := by
  have hle := le_of_compareBranches_isLE (isLE_of_maxBy h (List.mem_filter.mpr ⟨hb, heligible⟩))
  rw [UInt64.le_iff_toNat_le] at hle
  calc b.depth ≤ (b.score policy).effectiveCommitDepth.toNat :=
        depth_le_effectiveCommitDepth b
    _ ≤ (a.score policy).effectiveCommitDepth.toNat := hle
    _ ≤ a.depth + policy.maxWitnessOverrideDepth.toNat := effectiveCommitDepth_le a

/-! ### The trace does not see the order of the witnesses -/

instance : TransCmp compareWitnesses :=
  inferInstanceAs (TransCmp (compareLex (compareOn AppWitness.epoch) (compareOn AppWitness.sender)))

instance : Std.LawfulEqCmp compareWitnesses where
  compare_self {a} := by
    rw [compareWitnesses, Std.compare_self, Std.compare_self]
    rfl
  eq_of_compare {a b} h := by
    rw [compareWitnesses, Ordering.then_eq_eq, Std.compare_eq_iff_eq, Std.compare_eq_iff_eq] at h
    cases a
    cases b
    simpa using h

/-- Two branches that differ at most in the order of their witnesses. -/
def PermutedEvidence (a b : BranchCandidate) : Prop :=
  SameEvidence a b ∧ a.appWitnesses.Perm b.appWitnesses

theorem PermutedEvidence.evaluateCandidate (h : PermutedEvidence a b) (tip : UInt64) :
    evaluateCandidate tip policy a = evaluateCandidate tip policy b := by
  obtain ⟨hab, hperm⟩ := h
  simp only [Mdk.evaluateCandidate, hab.id, hab.forkEpoch, hab.tipEpoch, hab.tipPriority,
    hab.tipCommitter, hab.tipDigest, hab.isBranchEligible, hab.score,
    sortBy_eq_of_perm_of_lawful hperm]

theorem selectCanonicalBranchTraced_eq {cs₁ cs₂ : List BranchCandidate}
    (h : List.Forall₂ PermutedEvidence cs₁ cs₂) (tip : UInt64) (policy : ConvergencePolicy) :
    selectCanonicalBranchTraced tip cs₁ policy = selectCanonicalBranchTraced tip cs₂ policy := by
  have hordered : List.Forall₂ PermutedEvidence (sortBy (compareOn BranchCandidate.id) cs₁)
      (sortBy (compareOn BranchCandidate.id) cs₂) := by
    refine sortBy_rel (fun a b a' b' ha hb => ?_) h
    rw [compareOn, compareOn, ha.1.id, hb.1.id]
  have hevaluations : (sortBy (compareOn BranchCandidate.id) cs₁).map
        (evaluateCandidate tip policy) =
      (sortBy (compareOn BranchCandidate.id) cs₂).map (evaluateCandidate tip policy) :=
    map_eq_of_rel hordered fun a b hab => hab.evaluateCandidate tip
  have hselected := selectCanonicalBranch_rel (fun a b hab => And.left hab) h tip policy
  simp only [selectCanonicalBranchTraced, hevaluations]
  cases h₁ : selectCanonicalBranch tip cs₁ policy with
  | none =>
    rw [h₁] at hselected
    cases h₂ : selectCanonicalBranch tip cs₂ policy with
    | none => rfl
    | some b => rw [h₂] at hselected; cases hselected
  | some a =>
    rw [h₁] at hselected
    cases h₂ : selectCanonicalBranch tip cs₂ policy with
    | none => rw [h₂] at hselected; cases hselected
    | some b =>
      rw [h₂] at hselected
      obtain ⟨hab⟩ := hselected
      -- The runners-up come from the same positions of the two ordered lists.
      have hrunner : Option.Rel PermutedEvidence
          (maxBy (compareBranches policy)
            (((sortBy (compareOn BranchCandidate.id) cs₁).filter fun candidate =>
              isBranchEligible tip candidate policy).filter fun candidate =>
                candidate.id != a.id))
          (maxBy (compareBranches policy)
            (((sortBy (compareOn BranchCandidate.id) cs₂).filter fun candidate =>
              isBranchEligible tip candidate policy).filter fun candidate =>
                candidate.id != b.id)) := by
        refine maxBy_rel (fun c d c' d' hc hd =>
          SameEvidence.compareBranches c d c' d' hc.1 hd.1) ?_
        refine List.rel_filter (fun c d hcd => ?_) (List.rel_filter (fun c d hcd => ?_) hordered)
        · simp only [hcd.1.id, hab.1.id]
        · simp only [hcd.1.isBranchEligible]
      simp only [Option.map_some, hab.1.id, hab.1.score]
      rw [hab.1.id] at hrunner
      generalize maxBy (compareBranches policy) _ = r₁ at hrunner ⊢
      generalize maxBy (compareBranches policy) _ = r₂ at hrunner ⊢
      cases hrunner with
      | none => rfl
      | some hcd => simp only [hcd.1.id, hcd.1.score]

end Mdk
