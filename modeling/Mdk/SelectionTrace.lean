/-
Selection follows the documented order, and its audit trace explains it.

The order is six rules, the first that separates two branches decides.  The code has
it twice: as a chain of comparisons, and as the list of rules the trace walks.  Here
it is stated once, as rules on scores, and both are read off it.

Main result:
* `selection_is_greatest_and_explained` — **the selected branch is an eligible one that
  no eligible branch ranks above**, whatever the order of the candidates, and the trace
  names it, every other id, and the one rule that put it before the runner-up.
-/
import Mdk.Convergence

open Comparison

namespace Mdk

/-! ### The documented order -/

inductive SelectionRule where
  | effectiveCommitDepth
  | witnessQuorumMet
  | appWitnessScore
  | tipPriority
  | tipCommitter
  | tipDigest

namespace SelectionRule

def all : List SelectionRule :=
  [effectiveCommitDepth, witnessQuorumMet, appWitnessScore, tipPriority, tipCommitter, tipDigest]

def ruleName : SelectionRule → String
  | effectiveCommitDepth => "effective_commit_depth"
  | witnessQuorumMet => "witness_quorum_met"
  | appWitnessScore => "app_witness_score"
  | tipPriority => "tip_priority"
  | tipCommitter => "tip_committer"
  | tipDigest => "tip_digest"

def Ties (a b : BranchScore) : SelectionRule → Prop
  | effectiveCommitDepth => a.effectiveCommitDepth = b.effectiveCommitDepth
  | witnessQuorumMet => a.witnessQuorumMet = b.witnessQuorumMet
  | appWitnessScore => a.appWitnessScore = b.appWitnessScore
  | tipPriority => a.tipPriority = b.tipPriority
  | tipCommitter => a.tipCommitter = b.tipCommitter
  | tipDigest => a.tipDigest = b.tipDigest

/-- A deeper branch, a met quorum and more witnesses come first; so do a privileged tip,
and the tip with the smaller committer or digest. -/
def Favours (a b : BranchScore) : SelectionRule → Prop
  | effectiveCommitDepth => b.effectiveCommitDepth < a.effectiveCommitDepth
  | witnessQuorumMet => a.witnessQuorumMet = true ∧ b.witnessQuorumMet = false
  | appWitnessScore => b.appWitnessScore < a.appWitnessScore
  | tipPriority => a.tipPriority = .privileged ∧ b.tipPriority = .ordinary
  | tipCommitter => compare a.tipCommitter b.tipCommitter = .lt
  | tipDigest => compare a.tipDigest b.tipDigest = .lt

/-- The comparison a rule makes. -/
def cmp (a b : BranchScore) : SelectionRule → Ordering
  | effectiveCommitDepth => compare a.effectiveCommitDepth b.effectiveCommitDepth
  | witnessQuorumMet => compare a.witnessQuorumMet b.witnessQuorumMet
  | appWitnessScore => compare a.appWitnessScore b.appWitnessScore
  | tipPriority => compare b.tipPriority a.tipPriority
  | tipCommitter => compare b.tipCommitter a.tipCommitter
  | tipDigest => compare b.tipDigest a.tipDigest

variable {a b : BranchScore} {rule : SelectionRule}

theorem cmp_eq_eq : rule.cmp a b = .eq ↔ rule.Ties a b := by
  cases rule with
  | effectiveCommitDepth => exact Std.compare_eq_iff_eq
  | witnessQuorumMet => exact Std.compare_eq_iff_eq
  | appWitnessScore => exact Std.compare_eq_iff_eq
  | tipPriority =>
    rw [cmp, Ties]
    cases a.tipPriority <;> cases b.tipPriority <;> decide
  | tipCommitter => exact Std.compare_eq_iff_eq.trans eq_comm
  | tipDigest => exact Std.compare_eq_iff_eq.trans eq_comm

theorem cmp_eq_gt : rule.cmp a b = .gt ↔ rule.Favours a b := by
  cases rule <;> simp only [cmp, Favours, Std.compare_eq_gt]
  · cases a.witnessQuorumMet <;> cases b.witnessQuorumMet <;> decide
  · cases a.tipPriority <;> cases b.tipPriority <;> decide
  · exact Std.OrientedCmp.gt_iff_lt
  · exact Std.OrientedCmp.gt_iff_lt

theorem Favours.not_ties (h : rule.Favours a b) : ¬rule.Ties a b := by
  rw [← cmp_eq_eq, cmp_eq_gt.mpr h]
  nofun

end SelectionRule

open SelectionRule (Ties Favours)

/-- The first rule that separates the scores favours `a`. -/
def RanksAbove (a b : BranchScore) : Prop :=
  ∃ i rule, SelectionRule.all[i]? = some rule ∧ (∀ r ∈ SelectionRule.all.take i, Ties a b r) ∧
    Favours a b rule

/-- The comparisons of a list of rules, the first that separates decides. -/
def decideBy (a b : BranchScore) (rules : List SelectionRule) : Ordering :=
  rules.foldr (fun rule rest => (rule.cmp a b).then rest) .eq

open SelectionRule

theorem compareScores_eq (a b : BranchScore) :
    compareScores a b = decideBy a b all := by
  simp [compareScores, decideBy, all, SelectionRule.cmp]

variable {a b : BranchScore} {rules : List SelectionRule} {rule : SelectionRule} {i : ℕ}

theorem decideBy_eq_eq : decideBy a b rules = .eq ↔ ∀ rule ∈ rules, Ties a b rule := by
  induction rules with
  | nil => simp [decideBy]
  | cons rule rules ih =>
    rw [decideBy, List.foldr_cons, ← decideBy, Ordering.then_eq_eq, ih, cmp_eq_eq,
      List.forall_mem_cons]

/-- Rules that tie leave the decision to the ones after them. -/
theorem decideBy_of_ties (hrule : rules[i]? = some rule) (hties : ∀ r ∈ rules.take i, Ties a b r) :
    decideBy a b rules = (rule.cmp a b).then (decideBy a b (rules.drop (i + 1))) := by
  have hsplit : rules = rules.take i ++ rule :: rules.drop (i + 1) := by
    obtain ⟨hi, rfl⟩ := List.getElem?_eq_some_iff.mp hrule
    rw [List.getElem_cons_drop, List.take_append_drop]
  have hdecide : ∀ before rest : List SelectionRule, (∀ r ∈ before, Ties a b r) →
      decideBy a b (before ++ rest) = decideBy a b rest := by
    intro before rest h
    induction before with
    | nil => rfl
    | cons r before ih =>
      obtain ⟨hr, hbefore⟩ := List.forall_mem_cons.mp h
      rw [List.cons_append, decideBy, List.foldr_cons, ← decideBy, ih hbefore,
        cmp_eq_eq.mpr hr]
      rfl
  calc decideBy a b rules = decideBy a b (rules.take i ++ rule :: rules.drop (i + 1)) := by
        rw [← hsplit]
    _ = decideBy a b (rule :: rules.drop (i + 1)) := hdecide _ _ hties

/-- Rules that do not all tie have a first one that does not. -/
theorem exists_apart (h : ¬∀ r ∈ rules, Ties a b r) :
    ∃ i rule, rules[i]? = some rule ∧ (∀ r ∈ rules.take i, Ties a b r) ∧ ¬Ties a b rule := by
  induction rules with
  | nil => simp at h
  | cons r rules ih =>
    by_cases hr : Ties a b r
    · obtain ⟨i, rule, hrule, hties, hnot⟩ := ih fun hall => h (List.forall_mem_cons.mpr ⟨hr, hall⟩)
      exact ⟨i + 1, rule, hrule, List.forall_mem_cons.mpr ⟨hr, hties⟩, hnot⟩
    · exact ⟨0, r, rfl, by simp, hr⟩

theorem compareScores_eq_gt : compareScores a b = .gt ↔ RanksAbove a b := by
  rw [compareScores_eq]
  constructor
  · intro h
    have hapart : ¬∀ r ∈ all, Ties a b r := by
      intro hties
      rw [decideBy_eq_eq.mpr hties] at h
      cases h
    obtain ⟨i, rule, hrule, hties, hnot⟩ := exists_apart hapart
    rw [decideBy_of_ties hrule hties, Ordering.then_eq_gt] at h
    exact ⟨i, rule, hrule, hties, cmp_eq_gt.mp
      (h.resolve_right fun h => hnot (cmp_eq_eq.mp h.1))⟩
  · rintro ⟨i, rule, hrule, hties, hfavours⟩
    rw [decideBy_of_ties hrule hties, cmp_eq_gt.mpr hfavours]
    rfl

/-! ### The trace of the rules -/

/-- A rule is marked exactly if it is the first that separates. -/
theorem traceRules_decisive {winnerId otherId : String} {decided : Bool} {e : RuleEvaluation}
    {entries : List (String × Ordering × String × String)}
    (hentries : entries.map (fun entry => entry.2.1) = rules.map (SelectionRule.cmp a b))
    (he : (traceRules winnerId otherId decided entries)[i]? = some e)
    (hrule : rules[i]? = some rule) :
    e.decisive = true ↔
      decided = false ∧ (∀ r ∈ rules.take i, Ties a b r) ∧ ¬Ties a b rule := by
  induction rules generalizing i decided entries with
  | nil => simp at hrule
  | cons r rules ih =>
    obtain ⟨⟨name, order, value, value'⟩, entries, rfl, rfl, hrest⟩ :=
      List.map_eq_cons_iff.mp hentries
    have hcmp : (r.cmp a b != .eq) = true ↔ ¬Ties a b r := by
      rw [bne_iff_ne, ne_eq, cmp_eq_eq]
    cases i with
    | zero =>
      obtain rfl := Option.some.inj hrule
      obtain rfl := Option.some.inj he
      simp [hcmp]
    | succ i =>
      refine (ih hrest he hrule).trans ?_
      rw [List.take_succ_cons, List.forall_mem_cons]
      cases decided with
      | true => simp
      | false => simp [cmp_eq_eq, and_assoc]

/-- A rule is marked exactly if it favours the winner and all the rules before it tie. -/
def MarksFirst (winner other : BranchScore) (evaluations : List RuleEvaluation) : Prop :=
  ∀ (i : ℕ) e rule, evaluations[i]? = some e → SelectionRule.all[i]? = some rule →
    (e.decisive = true ↔
      (∀ r ∈ SelectionRule.all.take i, Ties winner other r) ∧ Favours winner other rule)

/-- The evaluations are about the two branches. -/
def NamesBranches (winnerId otherId : String) (evaluations : List RuleEvaluation) : Prop :=
  ∀ e ∈ evaluations, e.winnerBranchId = winnerId ∧ e.otherBranchId = otherId

theorem traceRules_names (winnerId otherId : String) (decided : Bool)
    (entries : List (String × Ordering × String × String)) :
    NamesBranches winnerId otherId (traceRules winnerId otherId decided entries) := by
  induction entries generalizing decided with
  | nil => exact nofun
  | cons entry entries ih => exact List.forall_mem_cons.mpr ⟨⟨rfl, rfl⟩, ih _⟩

/-- The trace lists the rules in order, for the two branches it names, and marks at most one
rule, the one that decides. -/
structure Explains (winnerId otherId : String) (winner other : BranchScore)
    (evaluations : List RuleEvaluation) : Prop where
  branches : NamesBranches winnerId otherId evaluations
  rules : evaluations.map RuleEvaluation.ruleName =
    SelectionRule.all.map SelectionRule.ruleName
  decisive : MarksFirst winner other evaluations
  unique : ∀ (i j : ℕ) e e', evaluations[i]? = some e → evaluations[j]? = some e' →
    e.decisive = true → e'.decisive = true → i = j

/-- Of two marked rules the earlier would favour the winner and tie. -/
theorem MarksFirst.not_lt {evaluations : List RuleEvaluation} {j : ℕ} {e e' : RuleEvaluation}
    (h : MarksFirst a b evaluations) (hlength : evaluations.length = all.length)
    (he : evaluations[i]? = some e) (he' : evaluations[j]? = some e') (hi : e.decisive = true)
    (hj : e'.decisive = true) : ¬i < j := by
  intro hij
  have hrule : ∀ {k : ℕ} {e}, evaluations[k]? = some e →
      ∃ rule, all[k]? = some rule := by
    intro k e he
    have hk := (List.getElem?_eq_some_iff.mp he).1
    exact ⟨_, List.getElem?_eq_getElem (hlength ▸ hk)⟩
  obtain ⟨rule, hrule₁⟩ := hrule he
  obtain ⟨rule', hrule₂⟩ := hrule he'
  have hfavours := ((h i e rule he hrule₁).mp hi).2
  have hties := ((h j e' rule' he' hrule₂).mp hj).1
  exact hfavours.not_ties (hties rule (List.mem_iff_getElem?.mpr
    ⟨i, by rw [List.getElem?_take_of_lt hij, hrule₁]⟩))

theorem buildRuleTrace_explains (winnerId otherId : String) (h : ¬RanksAbove b a) :
    Explains winnerId otherId a b (buildRuleTrace a b winnerId otherId) := by
  have hmarks : MarksFirst a b (buildRuleTrace a b winnerId otherId) := by
    intro i e rule he hrule
    rw [traceRules_decisive rfl he hrule, eq_self, true_and]
    refine and_congr_right fun hties => ⟨fun hnot => ?_, fun hfavours => hfavours.not_ties⟩
    cases hcmp : rule.cmp a b with
    | lt =>
      -- The runner-up would rank above the winner.
      have hlt : compareScores a b = .lt := by
        rw [compareScores_eq, decideBy_of_ties hrule hties, hcmp]
        rfl
      exact (h (compareScores_eq_gt.mp (Std.OrientedCmp.gt_iff_lt.mpr hlt))).elim
    | eq => exact (hnot (cmp_eq_eq.mp hcmp)).elim
    | gt => exact cmp_eq_gt.mp hcmp
  refine ⟨traceRules_names _ _ _ _, rfl, hmarks, fun i j e e' he he' hi hj => ?_⟩
  exact le_antisymm (not_lt.mp (hmarks.not_lt rfl he' he hj hi))
    (not_lt.mp (hmarks.not_lt rfl he he' hi hj))

/-! ### Selection -/

section

variable {policy : ConvergencePolicy} {l : List BranchCandidate} {c c' : BranchCandidate}

theorem not_ranksAbove_of_maxBy (h : maxBy (compareBranches policy) l = some c) (hc' : c' ∈ l) :
    ¬RanksAbove (c'.score policy) (c.score policy) := by
  have hle : (compareBranches policy c' c).isLE = true := isLE_of_maxBy h hc'
  rw [← compareScores_eq_gt]
  exact Ordering.isLE_iff_ne_gt.mp hle

theorem maxBy_eq_none : maxBy (compareBranches policy) l = none ↔ l = [] := by
  cases l <;> simp [maxBy]

/-- Lists with the same members have maxima of the same rank. -/
theorem maxBy_ties {l' : List BranchCandidate} (h : ∀ c, c ∈ l' ↔ c ∈ l) :
    Option.Rel (fun a b => ∀ rule ∈ all, Ties (a.score policy) (b.score policy) rule)
      (maxBy (compareBranches policy) l') (maxBy (compareBranches policy) l) := by
  cases hl' : maxBy (compareBranches policy) l' with
  | none =>
    have hl : l = [] := by
      rw [maxBy_eq_none] at hl'
      simpa [hl', List.eq_nil_iff_forall_not_mem] using h
    rw [hl]
    exact .none
  | some a =>
    cases hl : maxBy (compareBranches policy) l with
    | none =>
      rw [maxBy_eq_none] at hl
      have ha := (h a).mp (maxBy_mem hl')
      rw [hl] at ha
      cases ha
    | some b =>
      refine .some ?_
      have hab : (compareBranches policy a b).isLE = true :=
        isLE_of_maxBy hl ((h a).mp (maxBy_mem hl'))
      have hba : (compareBranches policy b a).isLE = true :=
        isLE_of_maxBy hl' ((h b).mpr (maxBy_mem hl))
      rw [← decideBy_eq_eq, ← compareScores_eq]
      exact Std.OrientedCmp.isLE_antisymm hab hba

end

theorem selection_is_greatest_and_explained (tip : UInt64) (candidates : List BranchCandidate)
    (policy : ConvergencePolicy) :
    let selected := selectCanonicalBranch tip candidates policy
    let trace := selectCanonicalBranchTraced tip candidates policy
    (selected = none ↔ ∀ c ∈ candidates, isBranchEligible tip c policy = false) ∧
    (∀ winner, selected = some winner →
      winner ∈ candidates ∧ isBranchEligible tip winner policy = true ∧
      ∀ c ∈ candidates, isBranchEligible tip c policy = true →
        ¬RanksAbove (c.score policy) (winner.score policy)) ∧
    (∀ candidates', candidates'.Perm candidates →
      Option.Rel (fun a b => ∀ rule ∈ all,
          Ties (a.score policy) (b.score policy) rule)
        (selectCanonicalBranch tip candidates' policy) selected) ∧
    trace.selectedBranchId = selected.map BranchCandidate.id ∧
    trace.losingBranchIds.Perm
      ((candidates.map BranchCandidate.id).filter fun id => some id != trace.selectedBranchId) ∧
    (selected = none → trace.ruleTrace = []) ∧
    ∀ winner, selected = some winner →
      let losers := candidates.filter fun c =>
        isBranchEligible tip c policy && (c.id != winner.id)
      (losers = [] ∧ trace.ruleTrace = []) ∨
      ∃ other ∈ losers,
        (∀ c ∈ losers, ¬RanksAbove (c.score policy) (other.score policy)) ∧
        Explains winner.id other.id (winner.score policy) (other.score policy)
          trace.ruleTrace := by
  intro selected trace
  refine ⟨?_, fun winner hwinner => ?_, fun candidates' hperm => ?_, rfl, ?_, fun hnone => ?_,
    fun winner hwinner => ?_⟩
  · rw [show selected = maxBy (compareBranches policy) _ from rfl, maxBy_eq_none]
    simp
  · obtain ⟨hmem, heligible⟩ := selectCanonicalBranch_mem hwinner
    exact ⟨hmem, heligible, fun c hc hce =>
      not_ranksAbove_of_maxBy hwinner (List.mem_filter.mpr ⟨hc, hce⟩)⟩
  · refine maxBy_ties fun c => ?_
    rw [List.mem_filter, List.mem_filter, hperm.mem_iff]
  · rw [List.filter_map]
    show (List.map _ (List.filter _ (List.map _ _))).Perm _
    rw [List.filter_map, List.map_map]
    exact ((sortBy_perm _ candidates).filter _).map _
  · simp only [trace, selectCanonicalBranchTraced]
    rw [show selectCanonicalBranch tip candidates policy = none from hnone]
  · have hlosers : ∀ c, c ∈ ((sortBy (compareOn BranchCandidate.id) candidates).filter fun c =>
          isBranchEligible tip c policy).filter (fun c => c.id != winner.id) ↔
        c ∈ candidates.filter fun c => isBranchEligible tip c policy && (c.id != winner.id) := by
      intro c
      simp only [List.mem_filter, mem_sortBy, Bool.and_eq_true, and_assoc]
    simp only [trace, selectCanonicalBranchTraced]
    rw [show selectCanonicalBranch tip candidates policy = some winner from hwinner]
    dsimp only
    split
    · rename_i hnone
      rw [maxBy_eq_none] at hnone
      refine .inl ⟨List.eq_nil_iff_forall_not_mem.mpr fun c hc => ?_, rfl⟩
      have hc := (hlosers c).mpr hc
      rw [hnone] at hc
      cases hc
    · rename_i other hother
      have hmem := (hlosers other).mp (maxBy_mem hother)
      refine .inr ⟨other, hmem, fun c hc => not_ranksAbove_of_maxBy hother ((hlosers c).mpr hc),
        buildRuleTrace_explains _ _ ?_⟩
      obtain ⟨hcandidate, hkeep⟩ := List.mem_filter.mp hmem
      exact not_ranksAbove_of_maxBy hwinner
        (List.mem_filter.mpr ⟨hcandidate, (Bool.and_eq_true _ _ ▸ hkeep).1⟩)

end Mdk
