/-
What a search finds depends on the commits that MLS replays, and on nothing else.

Two searches from the same epoch are given the same commits, in different orders and
states, with different budgets, and perhaps with further commits that MLS replays on
no path.  Such a commit is probed and reported, but no path is ever extended by it.
The two searches are compared probe by probe: their paths agree, and so do the
sequences they have tried, as far as no such commit is the last of one.

* `sameLive_sortBy` — sorted, the two lists of commits differ in dead commits only;
* `materialized_eq_of_live` — two searches that end materialize the same candidates.
-/
import Mdk.ReachablePaths

open Std (ExtTreeMap ExtTreeSet)
open Comparison

namespace Mdk

open CandidatePathProbe SearchLog List

/-- What the search reads of a commit. -/
def StoredCommitMessage.key (commit : StoredCommitMessage) : UInt64 × Digest :=
  (commit.sourceEpoch, commit.digest)

/-- MLS replays the commit on no path. -/
def ProbeOracle.Dead (oracle : ProbeOracle) (pendingProposals : List TransportMessage)
    (digest : Digest) : Prop :=
  ∀ digests candidate, oracle.replay pendingProposals (digests ++ [digest]) ≠ .ok candidate

/-! ### The same commits but for dead ones -/

section Lists

variable (dead : Digest → Prop)

/-- The same commits in the same order, once the dead ones are left out. -/
inductive SameLive : List StoredCommitMessage → List StoredCommitMessage → Prop
  | nil : SameLive [] []
  | both {a b : StoredCommitMessage} {l m : List StoredCommitMessage} (hkey : a.key = b.key)
      (hlive : ¬dead a.digest) (h : SameLive l m) : SameLive (a :: l) (b :: m)
  | left {a : StoredCommitMessage} {l m : List StoredCommitMessage} (hdead : dead a.digest)
      (h : SameLive l m) : SameLive (a :: l) m
  | right {b : StoredCommitMessage} {l m : List StoredCommitMessage} (hdead : dead b.digest)
      (h : SameLive l m) : SameLive l (b :: m)

variable [DecidablePred dead]

/-- The keys of the commits that are not dead. -/
def liveKeys (commits : List StoredCommitMessage) : List (UInt64 × Digest) :=
  (commits.map StoredCommitMessage.key).filter fun key => decide (¬dead key.2)

variable {dead} {commit : StoredCommitMessage} {commits commits' : List StoredCommitMessage}

theorem liveKeys_cons_of_dead (h : dead commit.digest) :
    liveKeys dead (commit :: commits) = liveKeys dead commits :=
  filter_cons_of_neg fun hlive => of_decide_eq_true hlive h

theorem liveKeys_cons_of_live (h : ¬dead commit.digest) :
    liveKeys dead (commit :: commits) = commit.key :: liveKeys dead commits :=
  filter_cons_of_pos (decide_eq_true h)

theorem sameLive_of_liveKeys (h : liveKeys dead commits = liveKeys dead commits') :
    SameLive dead commits commits' := by
  induction commits generalizing commits' with
  | nil =>
    induction commits' with
    | nil => exact .nil
    | cons b m ihm =>
      by_cases hb : dead b.digest
      · rw [liveKeys_cons_of_dead hb] at h
        exact .right hb (ihm h)
      · rw [liveKeys_cons_of_live hb] at h
        cases h
  | cons a l ih =>
    by_cases ha : dead a.digest
    · rw [liveKeys_cons_of_dead ha] at h
      exact .left ha (ih h)
    -- The live commit `a` meets the first live one of the other list.
    induction commits' with
    | nil =>
      rw [liveKeys_cons_of_live ha] at h
      cases h
    | cons b m ihm =>
      by_cases hb : dead b.digest
      · rw [liveKeys_cons_of_dead hb] at h
        exact .right hb (ihm h)
      · rw [liveKeys_cons_of_live ha, liveKeys_cons_of_live hb] at h
        obtain ⟨hkey, hrest⟩ := List.cons.inj h
        exact .both hkey ha (ih hrest)

def compareKeys : UInt64 × Digest → UInt64 × Digest → Ordering :=
  compareLex (compareOn Prod.fst) (compareOn Prod.snd)

instance : Std.TransCmp compareKeys :=
  inferInstanceAs (Std.TransCmp (compareLex _ _))

instance : Std.TransCmp compareStoredCommits :=
  inferInstanceAs (Std.TransCmp (compareLex (compareLex
    (compareOn fun commit : StoredCommitMessage => commit.sourceEpoch)
    (compareOn fun commit => commit.digest)) (compareOn fun commit => commit.message.payload)))

/-- Sorted commits have sorted keys. -/
theorem pairwise_liveKeys (commits : List StoredCommitMessage) :
    (liveKeys dead (sortBy compareStoredCommits commits)).Pairwise
      fun a b => (compareKeys a b).isLE = true := by
  refine Pairwise.filter _ (pairwise_map.mpr ((pairwise_sortBy commits).imp fun {a b} h => ?_))
  rw [compareStoredCommits] at h
  exact (Ordering.isLE_then_iff_and.mp h).1

/-- **Sorting leaves no difference but in dead commits.** -/
theorem sameLive_sortBy (h : (liveKeys dead commits).Perm (liveKeys dead commits')) :
    SameLive dead (sortBy compareStoredCommits commits)
      (sortBy compareStoredCommits commits') := by
  have hsorted : ∀ l, (liveKeys dead (sortBy compareStoredCommits l)).Perm (liveKeys dead l) :=
    fun l => ((sortBy_perm compareStoredCommits l).map _).filter _
  refine sameLive_of_liveKeys (List.Perm.eq_of_pairwise ?_ (pairwise_liveKeys commits)
    (pairwise_liveKeys commits') ((hsorted _).trans (h.trans (hsorted _).symm)))
  intro a b _ _ hab hba
  have heq := Std.OrientedCmp.isLE_antisymm hab hba
  rw [compareKeys, compareLex_eq_eq] at heq
  exact Prod.ext (Std.compare_eq_iff_eq.mp heq.1) (Std.compare_eq_iff_eq.mp heq.2)

end Lists

/-! ### Two searches side by side -/

section Search

variable {oracle : ProbeOracle} {pendingProposals : List TransportMessage}

/-- Paths the search cannot tell apart. -/
structure SamePath (a b : CandidatePathProbe) : Prop where
  digests : a.digests = b.digests
  tipEpoch : a.tipEpoch = b.tipEpoch
  materialized : a.materialized = b.materialized
  isEmpty : a.messages.isEmpty = b.messages.isEmpty

/-- The same completed paths, and the same sequences tried, as far as they end in a
commit that is not dead. -/
structure SameLog (dead : Digest → Prop) (a b : SearchLog) : Prop where
  completed : a.completed.map materialized = b.completed.map materialized
  seen : ∀ digests digest, ¬dead digest →
    (digests ++ [digest] ∈ a.seenPaths ↔ digests ++ [digest] ∈ b.seenPaths)

structure SameWalk (dead : Digest → Prop) (w v : Walk) : Prop where
  log : SameLog dead w.log v.log
  frontier : List.Forall₂ SamePath w.frontier v.frontier
  extended : w.extended = v.extended

theorem SamePath.symm {a b : CandidatePathProbe} (h : SamePath a b) : SamePath b a :=
  ⟨h.digests.symm, h.tipEpoch.symm, h.materialized.symm, h.isEmpty.symm⟩

variable {dead : Digest → Prop} {w w' v v' : Walk} {path path' : CandidatePathProbe}
  {commit commit' : StoredCommitMessage}

theorem SameWalk.symm (h : SameWalk dead w v) : SameWalk dead v w :=
  ⟨⟨h.log.completed.symm, fun digests digest hlive => (h.log.seen digests digest hlive).symm⟩,
    (h.frontier.imp fun _ _ hab => SamePath.symm hab).flip, h.extended.symm⟩

/-- A probe, with the candidate MLS gives if it gives one. -/
theorem Walk.probe_candidate (h : w.probe oracle pendingProposals path commit = .ok w') :
    ∃ candidate : Option OpenMlsMaterializedCandidate,
      (∀ c, candidate = some c ↔
        oracle.replay pendingProposals (path.digests ++ [commit.digest]) = .ok c) ∧
      w'.log.completed = w.log.completed ∧
      w'.frontier = w.frontier ++ (candidate.map (path.child commit)).toList ∧
      w'.extended = (w.extended || candidate.isSome) := by
  obtain ⟨result, hverdict, hlog, hfrontier, hextended⟩ := Walk.probe_eq h
  refine ⟨_, fun c => ?_, ?_, hfrontier, hextended⟩
  · rw [record_candidate, ← verdict_eq_materialized, hverdict, Except.ok.injEq]
  · rw [hlog]
    rcases result with ⟨_ | candidate⟩ | _ | _ | _ <;> rfl

/-- A dead commit is probed and leads nowhere. -/
theorem SameWalk.probe_dead (h : SameWalk dead w v) (hdead : dead commit.digest)
    (hreplay : ∀ digest, dead digest → oracle.Dead pendingProposals digest)
    (hprobe : w.probe oracle pendingProposals path commit = .ok w') : SameWalk dead w' v := by
  obtain ⟨candidate, hcandidate, hcompleted, hfrontier, hextended⟩ := Walk.probe_candidate hprobe
  obtain rfl : candidate = none := by
    refine Option.eq_none_iff_forall_ne_some.mpr fun c hc => ?_
    exact hreplay _ hdead path.digests c ((hcandidate c).mp hc)
  refine ⟨⟨hcompleted ▸ h.log.completed, fun digests digest hlive => ?_⟩, ?_, ?_⟩
  · rw [Walk.probe_seenPaths hprobe, ← h.log.seen digests digest hlive]
    refine or_iff_right fun heq => hlive ?_
    obtain ⟨-, heq⟩ := append_inj' heq rfl
    exact List.singleton_inj.mp heq ▸ hdead
  · simpa [hfrontier] using h.frontier
  · simpa [hextended] using h.extended

theorem SameWalk.probe_both (h : SameWalk dead w v) (hpath : SamePath path path')
    (hkey : commit.key = commit'.key)
    (hprobe : w.probe oracle pendingProposals path commit = .ok w')
    (hprobe' : v.probe oracle pendingProposals path' commit' = .ok v') :
    SameWalk dead w' v' := by
  have hdigest : commit.digest = commit'.digest := congrArg Prod.snd hkey
  obtain ⟨c, hc, hcompleted, hfrontier, hextended⟩ := Walk.probe_candidate hprobe
  obtain ⟨c', hc', hcompleted', hfrontier', hextended'⟩ := Walk.probe_candidate hprobe'
  obtain rfl : c = c' := by
    refine Option.ext fun candidate => ?_
    rw [hc, hc', hpath.digests, hdigest]
  refine ⟨⟨?_, fun digests digest hlive => ?_⟩, ?_, ?_⟩
  · rw [hcompleted, hcompleted', h.log.completed]
  · rw [Walk.probe_seenPaths hprobe, Walk.probe_seenPaths hprobe', h.log.seen digests digest hlive,
      hpath.digests, hdigest]
  · rw [hfrontier, hfrontier']
    refine rel_append h.frontier ?_
    cases c with
    | none => exact List.Forall₂.nil
    | some candidate =>
      refine List.Forall₂.cons ⟨?_, rfl, rfl, ?_⟩ List.Forall₂.nil
      · rw [child, child, hpath.digests, hdigest]
      · rw [isEmpty_eq_false_iff.mpr (by simp [child]), isEmpty_eq_false_iff.mpr (by simp [child])]
  · rw [hextended, hextended', h.extended]

theorem SamePath.tries_eq (hpath : SamePath path path') (hkey : commit.key = commit'.key)
    (hlive : ¬dead commit.digest) (h : SameLog dead w.log v.log) :
    path.tries commit w.log.seenPaths = path'.tries commit' v.log.seenPaths := by
  obtain ⟨hepoch, hdigest⟩ := Prod.mk.inj hkey
  have hseen : w.log.seenPaths.contains (path'.digests ++ [commit'.digest]) =
      v.log.seenPaths.contains (path'.digests ++ [commit'.digest]) := by
    rw [Bool.eq_iff_iff, ← ExtTreeSet.mem_iff_contains, ← ExtTreeSet.mem_iff_contains]
    exact h.seen _ _ (hdigest ▸ hlive)
  rw [tries, tries, hpath.digests, hpath.tipEpoch, hepoch, hdigest, hseen]

/-- **Walks over the same live commits** reach the same paths. -/
theorem SameWalk.walkCommits {l m : List StoredCommitMessage} (hlive : SameLive dead l m)
    (hreplay : ∀ digest, dead digest → oracle.Dead pendingProposals digest)
    (hpath : SamePath path path') (h : SameWalk dead w v)
    (hw : Mdk.walkCommits oracle pendingProposals path l w = .ok w')
    (hv : Mdk.walkCommits oracle pendingProposals path' m v = .ok v') : SameWalk dead w' v' := by
  induction hlive generalizing w v with
  | nil =>
    cases hw
    cases hv
    exact h
  | @both a b l m hkey hlive _ ih =>
    rw [Mdk.walkCommits] at hw hv
    rw [hpath.tries_eq hkey hlive h.log] at hw
    split at hw
    · rename_i htries
      rw [if_pos htries] at hv
      split at hw
      · cases hw
      · rename_i w₁ hprobe
        split at hv
        · cases hv
        · rename_i v₁ hprobe'
          exact ih (h.probe_both hpath hkey hprobe hprobe') hw hv
    · rename_i htries
      rw [if_neg htries] at hv
      exact ih h hw hv
  | @left a l m hdead _ ih =>
    rw [Mdk.walkCommits] at hw
    split at hw
    · split at hw
      · cases hw
      · rename_i w₁ hprobe
        exact ih (h.probe_dead hdead hreplay hprobe) hw hv
    · exact ih h hw hv
  | @right b l m hdead _ ih =>
    rw [Mdk.walkCommits] at hv
    split at hv
    · split at hv
      · cases hv
      · rename_i v₁ hprobe
        exact ih (h.symm.probe_dead hdead hreplay hprobe).symm hw hv
    · exact ih h hw hv

theorem SameLog.close {log log' : SearchLog} (h : SameLog dead log log')
    (hpath : SamePath path path') (extended : Bool) :
    SameLog dead (log.close path extended) (log'.close path' extended) := by
  rw [SearchLog.close, SearchLog.close, hpath.isEmpty]
  split
  · refine ⟨?_, h.seen⟩
    rw [map_append, map_append, h.completed, map_singleton, map_singleton, hpath.materialized]
  · exact h

variable {commits₁ commits₂ : List StoredCommitMessage} {startingEpoch : UInt64}

/-- What a search that ends is the end of. -/
theorem exploreAll_of_build {commits : List StoredCommitMessage} {pending : List TransportMessage}
    {budget budget' : ReplayBudget} {paths : StoredOpenMlsCandidatePathResult}
    (hproposals : pendingProposalMessages oracle pending = .ok pendingProposals)
    (hbudget : budget.remaining.toNat < usizeMax)
    (h : buildStoredOpenmlsCandidatePaths oracle commits pending startingEpoch budget =
      (budget', .ok paths)) :
    ∃ log, exploreAll oracle pendingProposals (sortBy compareStoredCommits commits)
        [CandidatePathProbe.root startingEpoch] ({}, budget) = .ok (log, budget') ∧
      paths.materialized = (log.completed.map materialized).filterMap id := by
  rw [unlimited_eq oracle commits pending startingEpoch hbudget, CandidateSearch.new, hproposals]
    at h
  dsimp only at h
  rw [CandidateSearch.remainder_of_inactive rfl] at h
  generalize exploreAll _ _ _ _ _ = r at h ⊢
  cases r with
  | error e => cases h
  | ok end' =>
    cases h
    exact ⟨_, rfl, by rw [filterMap_map]; rfl⟩

/-- **Two searches over the same live commits materialize the same candidates**,
whatever the order and the states of the commits, their budgets, and the dead commits
they are given besides. -/
theorem materialized_eq_of_live [DecidablePred dead]
    (hlive : (liveKeys dead commits₁).Perm (liveKeys dead commits₂))
    (hreplay : ∀ digest, dead digest → oracle.Dead pendingProposals digest)
    {pending₁ pending₂ : List TransportMessage} {budget₁ budget₂ budget₁' budget₂' : ReplayBudget}
    {paths₁ paths₂ : StoredOpenMlsCandidatePathResult}
    (hproposals₁ : pendingProposalMessages oracle pending₁ = .ok pendingProposals)
    (hproposals₂ : pendingProposalMessages oracle pending₂ = .ok pendingProposals)
    (hbudget₁ : budget₁.remaining.toNat < usizeMax) (hbudget₂ : budget₂.remaining.toNat < usizeMax)
    (h₁ : buildStoredOpenmlsCandidatePaths oracle commits₁ pending₁ startingEpoch budget₁ =
      (budget₁', .ok paths₁))
    (h₂ : buildStoredOpenmlsCandidatePaths oracle commits₂ pending₂ startingEpoch budget₂ =
      (budget₂', .ok paths₂)) :
    paths₁.materialized = paths₂.materialized := by
  obtain ⟨log₁, hend₁, hpaths₁⟩ := exploreAll_of_build hproposals₁ hbudget₁ h₁
  obtain ⟨log₂, hend₂, hpaths₂⟩ := exploreAll_of_build hproposals₂ hbudget₂ h₂
  have hlog : SameLog dead log₁ log₂ := by
    refine Worklist.fifo_related (R := SamePath) (S := fun t u => SameLog dead t.1 u.1) _ _ ?_
      (List.Forall₂.cons ⟨rfl, rfl, rfl, rfl⟩ List.Forall₂.nil) ⟨rfl, fun _ _ _ => Iff.rfl⟩
      hend₁ hend₂
    -- One path of each search: the walks over its commits go side by side.
    intro a b t u t' u' out out' hab htu ha hb
    rw [expandPath] at ha hb
    split at ha
    · cases ha
    · rename_i w hw
      cases ha
      split at hb
      · cases hb
      · rename_i v hv
        cases hb
        have hstart : SameWalk dead ⟨t.1, t.2, [], false⟩ ⟨u.1, u.2, [], false⟩ :=
          ⟨htu, List.Forall₂.nil, rfl⟩
        have hwalk := hstart.walkCommits (sameLive_sortBy hlive) hreplay hab hw hv
        exact ⟨hwalk.extended ▸ hwalk.log.close hab _, hwalk.frontier⟩
  rw [hpaths₁, hpaths₂, hlog.completed]

end Search

end Mdk
