/-
The scan used at admission agrees with the context of the pass.

`scanSelectionRelevance` walks the members once and keeps the first digest of each
epoch; the context keeps every digest.  Both come down to which digests the commits
among the members have at an epoch.

Main result:
* `scan_agrees_with_context` — **the scan and the context give one verdict**, for every
  list of members and every input, and the member of the input itself does not change it.
-/
import Mdk.ConvergencePass

open Std (ExtTreeMap ExtTreeSet)

namespace Mdk

open ConvergenceInputContext

variable {members : List ConvergencePassMember} {e k : UInt64} {d : Digest}

/-- A commit among the members leaves the epoch `k` with the digest `d`. -/
def EdgeAt (members : List ConvergencePassMember) (k : UInt64) (d : Digest) : Prop :=
  ∃ member ∈ members,
    member.role = .commitEdge ∧ member.sourceEpoch = k ∧ member.payloadDigest = d

/-- The member a classified input has in a pass. -/
def ClassifiedConvergenceInput.member (input : ClassifiedConvergenceInput)
    (messageId : String) : ConvergencePassMember :=
  ⟨messageId, input.digest, input.role, input.sourceEpoch⟩

/-- Two digests share an epoch before `e`. -/
def Competing (At : UInt64 → Digest → Prop) (e : UInt64) : Prop :=
  ∃ k < e, ∃ d₁, At k d₁ ∧ ∃ d₂, At k d₂ ∧ d₁ ≠ d₂

theorem competing_congr {At At' : UInt64 → Digest → Prop}
    (h : ∀ k < e, ∀ d, At k d ↔ At' k d) : Competing At e ↔ Competing At' e :=
  exists_congr fun k => and_congr_right fun hk => by simp only [h k hk]

theorem edgeAt_cons {member : ConvergencePassMember} :
    EdgeAt (member :: members) k d ↔
      (member.role = .commitEdge ∧ member.sourceEpoch = k ∧ member.payloadDigest = d) ∨
        EdgeAt members k d := by
  simp [EdgeAt]

/-! ### The context -/

namespace ConvergenceInputContext

/-- The digests of the commits that leave an epoch. -/
def edgesAt (context : ConvergenceInputContext) (k : UInt64) : ExtTreeSet Digest :=
  context.commitEdgesBySourceEpoch[k]?.getD ∅

theorem mem_edgesAt_add {context : ConvergenceInputContext} {role : ConvergencePassMemberRole}
    {epoch : UInt64} {digest : Digest} :
    d ∈ (context.add role epoch digest).edgesAt k ↔
      d ∈ context.edgesAt k ∨ (role = .commitEdge ∧ epoch = k ∧ digest = d) := by
  unfold add
  by_cases hrole : role = .commitEdge
  · rw [if_pos hrole, edgesAt, edgesAt, ExtTreeMap.getElem?_insert]
    by_cases hk : epoch = k
    · subst hk
      simp [ExtTreeSet.mem_insert, hrole, or_comm]
    · simp [hk]
  · simp [hrole]

theorem mem_edgesAt_fromPassMembers :
    d ∈ (fromPassMembers members).edgesAt k ↔ EdgeAt members k d := by
  have hfold : ∀ (l : List ConvergencePassMember) (context : ConvergenceInputContext),
      d ∈ (l.foldl (fun context member =>
          context.add member.role member.sourceEpoch member.payloadDigest) context).edgesAt k ↔
        d ∈ context.edgesAt k ∨ EdgeAt l k d := by
    intro l
    induction l with
    | nil => simp [EdgeAt]
    | cons member l ih =>
      intro context
      rw [List.foldl_cons, ih, mem_edgesAt_add, edgeAt_cons, or_assoc]
  rw [fromPassMembers, hfold]
  simp [edgesAt]

theorem hasCommitAt_iff (context : ConvergenceInputContext) :
    context.hasCommitAt k = true ↔ ∃ d, d ∈ context.edgesAt k := by
  rw [hasCommitAt, edgesAt]
  cases context.commitEdgesBySourceEpoch[k]? with
  | none => simp
  | some edges => simp [ExtTreeSet.eq_empty_iff_forall_not_mem]

/-- A set has two elements exactly if it has more than one. -/
theorem one_lt_size_iff (edges : ExtTreeSet Digest) :
    1 < edges.size ↔ ∃ d₁ ∈ edges, ∃ d₂ ∈ edges, d₁ ≠ d₂ := by
  have hnodup : edges.toList.Nodup :=
    edges.distinct_toList.imp fun h heq => h (Std.compare_eq_iff_eq.mpr heq)
  rw [← ExtTreeSet.length_toList, ← List.toFinset_card_of_nodup hnodup, Finset.one_lt_card]
  simp only [List.mem_toFinset, ExtTreeSet.mem_toList]

theorem hasCompetingCommitBefore_iff (context : ConvergenceInputContext) :
    context.hasCompetingCommitBefore e = true ↔ Competing (fun k d => d ∈ context.edgesAt k) e := by
  simp only [hasCompetingCommitBefore, List.any_eq_true, Bool.and_eq_true, decide_eq_true_eq,
    Prod.exists, ExtTreeMap.mem_toList_iff_getElem?_eq_some, Competing, edgesAt]
  simp only [one_lt_size_iff]
  constructor
  · rintro ⟨k, edges, hget, hk, hpair⟩
    exact ⟨k, hk, by rwa [hget]⟩
  · rintro ⟨k, hk, hpair⟩
    cases hget : context.commitEdgesBySourceEpoch[k]? with
    | none => simp [hget] at hpair
    | some edges => exact ⟨k, edges, hget, hk, by rwa [hget] at hpair⟩

end ConvergenceInputContext

/-! ### The scan -/

/-- The digests the scan deals with at an epoch: the one it has noted and those of the
members still ahead. -/
def Ahead (firsts : ExtTreeMap UInt64 Digest) (members : List ConvergencePassMember)
    (k : UInt64) (d : Digest) : Prop :=
  firsts[k]? = some d ∨ EdgeAt members k d

theorem scanCompeting_iff (firsts : ExtTreeMap UInt64 Digest) :
    scanCompeting e firsts members = true ↔ Competing (Ahead firsts members) e := by
  induction members generalizing firsts with
  | nil =>
    simp only [scanCompeting, Bool.false_eq_true, false_iff]
    rintro ⟨k, -, d₁, h₁, d₂, h₂, hne⟩
    simp only [Ahead, EdgeAt, List.not_mem_nil, false_and, exists_false, or_false] at h₁ h₂
    exact hne (Option.some.inj (h₁.symm.trans h₂))
  | cons member members ih =>
    rw [scanCompeting]
    split
    · -- A skipped member has no edge before `e`.
      rename_i hskip
      refine (ih firsts).trans (competing_congr fun k hk d => ?_)
      have hnot : ¬(member.role = .commitEdge ∧ member.sourceEpoch = k ∧
          member.payloadDigest = d) := by
        rintro ⟨hrole, rfl, -⟩
        exact hskip.elim (fun h => h hrole) (UInt64.not_le.mpr hk)
      rw [Ahead, Ahead, edgeAt_cons, or_iff_right hnot]
    · rename_i hedge
      obtain ⟨hrole, hbefore⟩ := not_or.mp hedge
      have hown : EdgeAt (member :: members) member.sourceEpoch member.payloadDigest :=
        edgeAt_cons.mpr (.inl ⟨not_not.mp hrole, rfl, rfl⟩)
      split
      · -- The first digest of the epoch moves from the members to the notes.
        rename_i hnone
        refine (ih _).trans (competing_congr fun k _ d => ?_)
        rw [Ahead, Ahead, edgeAt_cons, ExtTreeMap.getElem?_insert]
        by_cases hk : member.sourceEpoch = k
        · subst hk
          simp [hnone, not_not.mp hrole]
        · simp [hk]
      · rename_i first hfirst
        split
        · rename_i hne
          simp only [true_iff]
          exact ⟨_, UInt64.not_le.mp hbefore, first, .inl hfirst, _, .inr hown, hne⟩
        · rename_i hsame
          refine (ih firsts).trans (competing_congr fun k _ d => ?_)
          rw [Ahead, Ahead, edgeAt_cons, or_left_comm]
          refine (or_iff_right_of_imp ?_).symm
          rintro ⟨-, rfl, rfl⟩
          exact .inl (not_not.mp hsame ▸ hfirst)

/-- The context and the scan give one verdict on an input, and its own member does not
change it. -/
theorem scan_agrees_with_context (members : List ConvergencePassMember)
    (input : ClassifiedConvergenceInput) :
    scanSelectionRelevance members input =
        (ConvergenceInputContext.fromPassMembers members).isPotentiallySelectionRelevant input ∧
      ∀ messageId, scanSelectionRelevance (members ++ [input.member messageId]) input =
        scanSelectionRelevance members input := by
  have hsame : ∀ members, scanSelectionRelevance members input =
      (fromPassMembers members).isPotentiallySelectionRelevant input := by
    intro members
    rw [scanSelectionRelevance, isPotentiallySelectionRelevant]
    split
    · rfl
    · rw [Bool.eq_iff_iff, hasCommitAt_iff]
      simp [mem_edgesAt_fromPassMembers, EdgeAt]
    · rw [Bool.eq_iff_iff, hasCompetingCommitBefore_iff, scanCompeting_iff]
      refine competing_congr fun k _ d => ?_
      simp [mem_edgesAt_fromPassMembers, Ahead]
  refine ⟨hsame members, fun messageId => ?_⟩
  by_cases hrole : input.role = .commitEdge
  · rw [scanSelectionRelevance, scanSelectionRelevance, hrole]
  · -- The context holds commits only.
    rw [hsame, hsame, fromPassMembers, List.foldl_concat,
      add, if_neg (by exact hrole)]
    rfl

end Mdk
