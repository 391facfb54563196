/-
Commits whose parent has not arrived.

A search probes a commit on every path that ends at the commit's source epoch, also
on those that do not end at its parent.  Where MLS refuses it on all of them, the
commit is reported as invalid, and it is then dropped for good although its parent
may be on the way.

* `commit_kept_iff` — when a completed search keeps a commit that a larger set of
  commits would materialize;
* `child_dropped_before_its_parent` — a fork on whose one side the commit was made,
  searched before that side has arrived.
-/
import Mdk.ReachablePaths

open Std (ExtTreeMap ExtTreeSet TransCmp)
open Comparison

namespace Mdk

open CandidateSearch List

/-! ### Completed searches -/

/-- Slice after slice, whatever the slices allow, the search completes as `final`. -/
inductive CandidateSearch.Completes (oracle : ProbeOracle) :
    CandidateSearch → ReplayBudget → CandidateSearch → Prop
  | complete {search final : CandidateSearch} {budget budget' : ReplayBudget} {slice : ReplaySlice}
      (h : search.advance oracle budget slice = .complete final budget') :
      Completes oracle search budget final
  | resume {search search' final : CandidateSearch} {budget budget' : ReplayBudget}
      {slice : ReplaySlice} (h : search.advance oracle budget slice = .paused search' budget')
      (hrest : Completes oracle search' budget' final) : Completes oracle search budget final

/-- `final` is a completed search over `commits`. -/
def CompletedOver (oracle : ProbeOracle) (commits : List StoredCommitMessage)
    (pending : List TransportMessage) (startingEpoch : UInt64) (final : CandidateSearch) : Prop :=
  ∃ search budget, CandidateSearch.new oracle commits pending startingEpoch = .ok search ∧
    search.Completes oracle budget final

/-- What `finish` reports of a completed search. -/
def CandidateSearch.report (oracle : ProbeOracle) (final : CandidateSearch) :
    StoredOpenMlsCandidatePathResult :=
  final.toSearchLog.finish oracle final.unresolvedCommitIds

/-- The completed search does not drop the commit as invalid: it has materialized it,
or reports it as unmaterialized. -/
def CandidateSearch.Keeps (oracle : ProbeOracle) (final : CandidateSearch)
    (commit : StoredCommitMessage) : Prop :=
  (∀ drop ∈ (final.report oracle).invalidCommitDrops, drop.messageId = commit.message.id →
    drop.reason ≠ .invalidAgainstCandidateState) ∧
  (commit.message.id ∈ final.materializedCommitIds ∨
    commit.message.id ∈ (final.report oracle).unmaterializedCommitIds)

variable {oracle : ProbeOracle}

theorem CandidateSearch.Completes.remainder {search final : CandidateSearch} {budget : ReplayBudget}
    (h : search.Completes oracle budget final) :
    (∃ budget', search.remainder oracle budget = .ok (final.toSearchLog, budget')) ∧
      final.unresolvedCommitIds = search.unresolvedCommitIds := by
  induction h with
  | @complete search final budget budget' slice h =>
    have hspec := advance_spec oracle search budget slice
    rw [h] at hspec
    exact ⟨⟨budget', hspec.1⟩, hspec.2⟩
  | @resume search search' final budget budget' slice h _ ih =>
    have hspec := advance_spec oracle search budget slice
    rw [h] at hspec
    obtain ⟨hremainder, hunresolved, -⟩ := hspec
    rw [hremainder, ← hunresolved]
    exact ih

section Found

variable (oracle : ProbeOracle) (commits : List StoredCommitMessage)
  (pending : List TransportMessage) (startingEpoch : UInt64)

/-- The verdicts on the commits of a set, on the paths the set can reach. -/
def Verdict (path : CandidatePathProbe) (commit : StoredCommitMessage)
    (result : CandidatePathProbeResult) : Prop :=
  ∃ pendingProposals, pendingProposalMessages oracle pending = .ok pendingProposals ∧
    Probed oracle pendingProposals (sortBy compareStoredCommits commits) startingEpoch path commit
      result

/-- Some path the set can reach is extended by a commit with this id. -/
def Materializes (id : String) : Prop :=
  ∃ path commit candidate,
    Verdict oracle commits pending startingEpoch path commit (.materialized (some candidate)) ∧
      commit.message.id = id

/-- No path the set can reach refuses the commit for good. -/
structure NotRefused (id : String) : Prop where
  /-- No verdict on a path names the commit as invalid. -/
  unnamed : ∀ path commit result, Verdict oracle commits pending startingEpoch path commit result →
    ∀ drop ∈ result.drops commit, drop.messageId ≠ id
  /-- If it fails to replay on a path, it replays on another. -/
  replays : (∃ path commit, Verdict oracle commits pending startingEpoch path commit
      (.materialized none) ∧ commit.message.id = id) →
    Materializes oracle commits pending startingEpoch id
  /-- If it replays on none, it is one of the commits the pass has to resolve. -/
  awaited : Materializes oracle commits pending startingEpoch id ∨
    ∃ commit ∈ commits, commit.message.id = id ∧ unresolvedCommitState commit.state = true

variable {oracle commits pending startingEpoch} {final : CandidateSearch}

/-- The log of a completed search, read as verdicts. -/
theorem CompletedOver.found (h : CompletedOver oracle commits pending startingEpoch final) :
    (∀ id, id ∈ final.materializedCommitIds ↔
        Materializes oracle commits pending startingEpoch id) ∧
      (∀ id, id ∈ final.replayRejectedCommitIds ↔ ∃ path commit,
        Verdict oracle commits pending startingEpoch path commit (.materialized none) ∧
          commit.message.id = id) ∧
      (∀ drop, drop ∈ final.invalidCommitDrops ↔ ∃ path commit result,
        Verdict oracle commits pending startingEpoch path commit result ∧
          drop ∈ result.drops commit) ∧
      final.unresolvedCommitIds = unresolvedCommitIds (sortBy compareStoredCommits commits) := by
  obtain ⟨search, budget, hnew, hcompletes⟩ := h
  obtain ⟨⟨budget', hremainder⟩, hunresolved⟩ := hcompletes.remainder
  rw [new] at hnew
  cases hproposals : pendingProposalMessages oracle pending with
  | error err =>
    rw [hproposals] at hnew
    cases hnew
  | ok proposals =>
    rw [hproposals] at hnew
    cases hnew
    rw [remainder_of_inactive rfl] at hremainder
    obtain ⟨hsound, hfound⟩ := exploreAll_found hremainder
    have hhas : ∀ path commit result,
        Verdict oracle commits pending startingEpoch path commit result →
        final.toSearchLog.Has commit result := by
      rintro path commit result ⟨proposals', hproposals', hprobed⟩
      rw [hproposals] at hproposals'
      cases hproposals'
      obtain ⟨result', hverdict, hlog⟩ := hfound path commit hprobed.reachable hprobed.extension
      rw [hprobed.verdict] at hverdict
      cases hverdict
      exact hlog
    refine ⟨fun id => ⟨fun hid => ?_, ?_⟩, fun id => ⟨fun hid => ?_, ?_⟩,
      fun drop => ⟨fun hdrop => ?_, ?_⟩, hunresolved⟩
    · obtain ⟨path, commit, candidate, hprobed, rfl⟩ := hsound.materialized id hid
      exact ⟨path, commit, candidate, ⟨proposals, hproposals, hprobed⟩, rfl⟩
    · rintro ⟨path, commit, candidate, hverdict, rfl⟩
      exact (hhas path commit _ hverdict).materialized candidate rfl
    · obtain ⟨path, commit, hprobed, rfl⟩ := hsound.rejected id hid
      exact ⟨path, commit, ⟨proposals, hproposals, hprobed⟩, rfl⟩
    · rintro ⟨path, commit, hverdict, rfl⟩
      exact (hhas path commit _ hverdict).rejected rfl
    · obtain ⟨path, commit, result, hprobed, hmem⟩ := hsound.drops drop hdrop
      exact ⟨path, commit, result, ⟨proposals, hproposals, hprobed⟩, hmem⟩
    · rintro ⟨path, commit, result, hverdict, hmem⟩
      exact (hhas path commit _ hverdict).drops drop hmem

end Found

/-! ### The report -/

variable {final : CandidateSearch}

theorem mem_report_drops {drop : DroppedMessage} :
    drop ∈ (final.report oracle).invalidCommitDrops ↔
      drop ∈ final.invalidCommitDrops ∨ ∃ id ∈ final.replayRejectedCommitIds,
        id ∉ final.materializedCommitIds ∧ drop = invalidCommitDrop id none := by
  simp only [report, SearchLog.finish, mem_append, mem_map,
    mem_filter, ExtTreeSet.mem_toList, Bool.not_eq_true', ← Bool.not_eq_true,
    ← ExtTreeSet.mem_iff_contains, and_assoc]
  simp only [eq_comm]

theorem mem_report_unmaterialized {id : String} :
    id ∈ (final.report oracle).unmaterializedCommitIds ↔
      id ∈ final.unresolvedCommitIds ∧ id ∉ final.materializedCommitIds ∧
        ∀ drop ∈ (final.report oracle).invalidCommitDrops, drop.kind = .commit →
          drop.messageId ≠ id := by
  have hterminal : ∀ drops : List DroppedMessage,
      (((drops.filter fun dropped => decide (dropped.kind = .commit)).map
        DroppedMessage.messageId).contains id = false ↔
      ∀ drop ∈ drops, drop.kind = .commit → drop.messageId ≠ id) := by
    intro drops
    rw [← Bool.not_eq_true, contains_iff_mem, mem_map]
    simp only [mem_filter, decide_eq_true_eq, not_exists, not_and, and_imp]
  simp only [report, SearchLog.finish, mem_filter, ExtTreeSet.mem_toList,
    Bool.not_eq_true', hterminal, and_assoc]
  rw [← Bool.not_eq_true, ← ExtTreeSet.mem_iff_contains]

/-- Every drop of a search has the one reason. -/
theorem reason_of_mem_drops {commit : StoredCommitMessage} {result : CandidatePathProbeResult}
    {drop : DroppedMessage} (h : drop ∈ result.drops commit) :
    drop.reason = .invalidAgainstCandidateState := by
  rcases result with _ | _ | _ | _
  · cases h
  · rcases mem_cons.mp h with rfl | h
    · rfl
    · rw [mem_singleton.mp h]
      rfl
  · rw [mem_singleton.mp h]
    rfl
  · rw [mem_singleton.mp h]
    rfl

variable {commits : List StoredCommitMessage}

theorem mem_unresolvedCommitIds {id : String} :
    id ∈ unresolvedCommitIds (sortBy compareStoredCommits commits) ↔
      ∃ commit ∈ commits, commit.message.id = id ∧ unresolvedCommitState commit.state = true := by
  simp only [unresolvedCommitIds, ExtTreeSet.mem_ofList, contains_iff_mem, mem_map,
    mem_filter, mem_sortBy]
  constructor
  · rintro ⟨commit, ⟨hmem, hstate⟩, hid⟩
    exact ⟨commit, hmem, hid, hstate⟩
  · rintro ⟨commit, hmem, hid, hstate⟩
    exact ⟨commit, ⟨hmem, hstate⟩, hid⟩

/-- A completed search keeps a commit exactly when no path refuses it. -/
theorem keeps_iff_notRefused {pending : List TransportMessage} {startingEpoch : UInt64}
    (h : CompletedOver oracle commits pending startingEpoch final) (commit : StoredCommitMessage) :
    final.Keeps oracle commit ↔
      NotRefused oracle commits pending startingEpoch commit.message.id := by
  obtain ⟨hmaterialized, hrejected, hdrops, hunresolved⟩ := h.found
  constructor
  · rintro ⟨hkept, hreported⟩
    refine ⟨fun path c result hverdict drop hdrop hid => ?_, fun hfails => ?_, ?_⟩
    · refine hkept drop (mem_report_drops.mpr (Or.inl ?_)) hid (reason_of_mem_drops hdrop)
      exact (hdrops drop).mpr ⟨path, c, result, hverdict, hdrop⟩
    · rw [← hmaterialized]
      by_contra hnot
      refine hkept (invalidCommitDrop commit.message.id none)
        (mem_report_drops.mpr (Or.inr ⟨_, (hrejected _).mpr hfails, hnot, rfl⟩)) rfl rfl
    · rcases hreported with hreported | hreported
      · exact Or.inl ((hmaterialized _).mp hreported)
      · have hmem := (mem_report_unmaterialized.mp hreported).1
        rw [hunresolved, mem_unresolvedCommitIds] at hmem
        exact Or.inr hmem
  · intro hnot
    -- Neither a verdict nor a failed replay is reported for the commit.
    have hunnamed : ∀ drop ∈ (final.report oracle).invalidCommitDrops,
        drop.messageId ≠ commit.message.id := by
      intro drop hdrop hid
      rcases mem_report_drops.mp hdrop with hdrop | ⟨id, hid', hnew, rfl⟩
      · obtain ⟨path, c, result, hverdict, hmem⟩ := (hdrops drop).mp hdrop
        exact hnot.unnamed path c result hverdict drop hmem hid
      · obtain rfl : id = commit.message.id := hid
        exact hnew ((hmaterialized _).mpr (hnot.replays ((hrejected _).mp hid')))
    refine ⟨fun drop hdrop hid => absurd hid (hunnamed drop hdrop), ?_⟩
    by_cases hmem : commit.message.id ∈ final.materializedCommitIds
    · exact Or.inl hmem
    · refine Or.inr (mem_report_unmaterialized.mpr ⟨?_, hmem, fun drop hdrop _ =>
        hunnamed drop hdrop⟩)
      rw [hunresolved, mem_unresolvedCommitIds]
      exact hnot.awaited.resolve_left fun hm => hmem ((hmaterialized _).mpr hm)

/-- **A commit that a larger set materializes is kept exactly when no path that the
smaller set can reach refuses it.**  `final` and `final'` are completed searches over
the two sets. -/
theorem commit_kept_iff (oracle : ProbeOracle) (commits commits' : List StoredCommitMessage)
    (pending : List TransportMessage) (startingEpoch : UInt64) (commit : StoredCommitMessage)
    (final final' : CandidateSearch)
    (hfinal : CompletedOver oracle commits pending startingEpoch final)
    (hfinal' : CompletedOver oracle commits' pending startingEpoch final') :
    (commit.message.id ∈ final'.materializedCommitIds → final.Keeps oracle commit) ↔
      (Materializes oracle commits' pending startingEpoch commit.message.id →
        NotRefused oracle commits pending startingEpoch commit.message.id) := by
  rw [keeps_iff_notRefused hfinal commit, hfinal'.found.1]

/-! ### The fork -/

/-- What is read off a completed search. -/
def Advance.summary (oracle : ProbeOracle) : Advance → Option (List DroppedMessage × List String)
  | .complete final _ =>
    some ((final.report oracle).invalidCommitDrops, final.materializedCommitIds.toList)
  | .paused _ _ | .failed _ _ => none

/-- The search over `commits` in one slice, given up after ten paths. -/
def forkSearch (commits : List StoredCommitMessage) : Option Advance :=
  match CandidateSearch.new forkOracle commits [] 10 with
  | .error _ => none
  | .ok search =>
    Loop.runFor (CandidateSearch.advanceRound forkOracle) 10 (search, .new 100, .unlimited)

theorem completedOver_of_summary {drops : List DroppedMessage} {ids : List String}
    (h : (forkSearch commits).bind (Advance.summary forkOracle) = some (drops, ids)) :
    ∃ final, CompletedOver forkOracle commits [] 10 final ∧
      (final.report forkOracle).invalidCommitDrops = drops ∧
      final.materializedCommitIds.toList = ids := by
  rw [forkSearch] at h
  cases hnew : new forkOracle commits [] 10 with
  | error err =>
    rw [hnew] at h
    cases h
  | ok search =>
    rw [hnew] at h
    obtain ⟨a, ha, hsummary⟩ := Option.bind_eq_some_iff.mp h
    cases a with
    | paused final budget => cases hsummary
    | failed err budget => cases hsummary
    | complete final budget =>
      cases hsummary
      have hadvance : search.advance forkOracle (.new 100) .unlimited = .complete final budget :=
        Loop.run_eq_of_runFor ha
      exact ⟨final, ⟨search, .new 100, hnew, .complete hadvance⟩, rfl, rfl⟩

/-- The oracle of the fork only replays or fails to replay. -/
theorem forkOracle_drops {path : CandidatePathProbe} {commit : StoredCommitMessage}
    {result : CandidatePathProbeResult} (h : Verdict forkOracle commits [] 10 path commit result) :
    result.drops commit = [] := by
  obtain ⟨proposals, -, hprobed⟩ := h
  have hverdict := hprobed.verdict
  rw [verdict] at hverdict
  simp only [forkOracle] at hverdict
  split at hverdict
  · cases hverdict
    rfl
  · split at hverdict
    · cases hverdict
      rfl
    · cases hverdict
      rfl

/-- With its parent in the set, the child replays on it. -/
theorem forkChild_materializes : Materializes forkOracle [forkParent, forkChild] [] 10 "child" := by
  have hparent : ReachablePath forkOracle [] (sortBy compareStoredCommits [forkParent, forkChild])
      10 ((CandidatePathProbe.root 10).child forkParent
        ⟨"path:1", 10, 11, .ordinary, [0], forkParent.digest, [], []⟩) := by
    refine ReachablePath.child ReachablePath.root ?_ ?_
    · decide +kernel
    · rfl
  refine ⟨_, forkChild, ⟨"path:2", 10, 12, .ordinary, [0], forkChild.digest, [], []⟩,
    ⟨[], rfl, hparent, ?_, ?_⟩, rfl⟩
  · decide +kernel
  · rfl

/-- The search over the whole fork completes and materializes the child. -/
theorem forkSearch_with_parent :
    ∃ final, CompletedOver forkOracle [forkParent, forkSibling, forkChild] [] 10 final ∧
      forkChild.message.id ∈ final.materializedCommitIds := by
  obtain ⟨final, hfinal, -, hids⟩ := completedOver_of_summary
    (show (forkSearch [forkParent, forkSibling, forkChild]).bind (Advance.summary forkOracle) =
      some ([], ["child", "parent", "sibling"]) by decide +kernel)
  refine ⟨final, hfinal, ?_⟩
  rw [← ExtTreeSet.mem_toList, hids]
  decide

theorem commit_kept_beside_its_parent :
    ∃ final final', CompletedOver forkOracle [forkParent, forkChild] [] 10 final ∧
      CompletedOver forkOracle [forkParent, forkSibling, forkChild] [] 10 final' ∧
      forkChild.message.id ∈ final'.materializedCommitIds ∧ final.Keeps forkOracle forkChild := by
  obtain ⟨final, hfinal, -, -⟩ := completedOver_of_summary
    (show (forkSearch [forkParent, forkChild]).bind (Advance.summary forkOracle) =
      some ([], ["child", "parent"]) by decide +kernel)
  obtain ⟨final', hfinal', hmem⟩ := forkSearch_with_parent
  refine ⟨final, final', hfinal, hfinal', hmem, ?_⟩
  refine (commit_kept_iff forkOracle [forkParent, forkChild] [forkParent, forkSibling, forkChild]
    [] 10 forkChild final final' hfinal hfinal').mpr (fun _ => ?_) hmem
  refine ⟨fun path commit result hverdict drop hdrop => ?_, fun _ => forkChild_materializes,
    Or.inl forkChild_materializes⟩
  rw [forkOracle_drops hverdict] at hdrop
  cases hdrop

/-- Before its parent has arrived the child is probed on the sibling only, fails there,
and is reported as invalid; with the parent it materializes. -/
theorem child_dropped_before_its_parent :
    (∀ commit ∈ [forkSibling, forkChild], commit ∈ [forkParent, forkSibling, forkChild]) ∧
      ∃ final final', CompletedOver forkOracle [forkSibling, forkChild] [] 10 final ∧
        CompletedOver forkOracle [forkParent, forkSibling, forkChild] [] 10 final' ∧
        forkChild.message.id ∈ final'.materializedCommitIds ∧
        invalidCommitDrop forkChild.message.id none ∈
          (final.report forkOracle).invalidCommitDrops ∧
        ¬ final.Keeps forkOracle forkChild := by
  refine ⟨by decide, ?_⟩
  obtain ⟨final, hfinal, hdrops, -⟩ := completedOver_of_summary
    (show (forkSearch [forkSibling, forkChild]).bind (Advance.summary forkOracle) =
      some ([invalidCommitDrop "child" none], ["sibling"]) by decide +kernel)
  obtain ⟨final', hfinal', hmem⟩ := forkSearch_with_parent
  have hdrop : invalidCommitDrop forkChild.message.id none ∈
      (final.report forkOracle).invalidCommitDrops := by
    rw [hdrops]
    exact mem_singleton.mpr rfl
  exact ⟨final, final', hfinal, hfinal', hmem, hdrop, fun hkeeps => hkeeps.1 _ hdrop rfl rfl⟩

end Mdk
