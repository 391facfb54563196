/-
The search in slices, the search in one go and the reference find the same.

A call of `advance` that pauses leaves the work it has not done
(`CandidateSearch.remainder`) as it was; that is the invariant of the slices.  The
remainder itself is a queue of paths, and the reference is the same worklist taken
level by level.

* `advance_spec` — what one call of `advance` does, in terms of the remainder;
* `sliced_search_eq_reference` — for every sequence of slices the same result, or the
  same error, with the same budget left.
-/
import Mdk.CandidateSearch

open Std (ExtTreeMap ExtTreeSet TransCmp)
open Comparison

namespace Mdk

open CandidateSearch

/-! ### One call -/

/-- The paths that wait and the probes that are left. -/
def CandidateSearch.workLeft (s : CandidateSearch × ReplayBudget × ReplaySlice) : Nat :=
  (if s.1.active.isSome then 1 else 0) + s.1.frontier.length + s.2.1.remaining.toNat

/-- A path that is taken up no longer waits. -/
theorem CandidateSearch.take_lowers {search search' : CandidateSearch}
    {work : CandidatePathProbe × Nat × Bool} (h : search.take = some (work, search'))
    (budget : ReplayBudget) (slice : ReplaySlice) :
    search'.active = none ∧
      search'.frontier.length + budget.remaining.toNat < workLeft (search, budget, slice) := by
  rw [take] at h
  rw [workLeft]
  cases hactive : search.active with
  | some w =>
    rw [hactive] at h
    cases h
    refine ⟨rfl, ?_⟩
    simp only [Option.isSome_some, if_true]
    omega
  | none =>
    rw [hactive] at h
    cases hfrontier : search.frontier with
    | nil =>
      rw [hfrontier] at h
      cases h
    | cons path frontier =>
      rw [hfrontier] at h
      cases h
      refine ⟨rfl, ?_⟩
      simp only [List.length_cons]
      omega

variable (oracle : ProbeOracle) (search : CandidateSearch) (budget : ReplayBudget)
  (slice : ReplaySlice)

/-- Everything one round of `advance` can do: find that no path is left, or take one up
and fail, pause or finish on it as the walk over its commits says. -/
theorem CandidateSearch.advanceRound_cases :
    (search.take = none ∧
      advanceRound oracle (search, budget, slice) = .inr (.complete search budget)) ∨
    ∃ path index extended search₀, search.take = some ((path, index, extended), search₀) ∧
      ((∃ err budget', walkCommits oracle search₀.pendingProposals path
            (search₀.commits.drop index) (search₀.walk budget extended) = .error (budget', err) ∧
          advanceRound oracle (search, budget, slice) = .inr (.failed err budget')) ∨
        (∃ w k n, walkCommits oracle search₀.pendingProposals path (search₀.commits.drop index)
              (search₀.walk budget extended) =
            walkCommits oracle search₀.pendingProposals path
              ((search₀.commits.drop index).drop k) w ∧
          n + w.budget.remaining.toNat = slice.started + budget.remaining.toNat ∧
          slice.StopsAt n ∧
          advanceRound oracle (search, budget, slice) = .inr (.paused
            { search₀.withWalk w with active := some (path, index + k, w.extended) } w.budget)) ∨
        ∃ w slice', walkCommits oracle search₀.pendingProposals path (search₀.commits.drop index)
            (search₀.walk budget extended) = .ok w ∧
          slice'.started + w.budget.remaining.toNat =
            slice.started + budget.remaining.toNat ∧
          (∀ n, slice'.StopsAt n ↔ slice.StopsAt n) ∧
          advanceRound oracle (search, budget, slice) = .inl
            ({ search₀.withWalk w with toSearchLog := w.log.close path w.extended }, w.budget,
              slice')) := by
  rw [advanceRound]
  cases htake : search.take with
  | none => exact .inl ⟨rfl, rfl⟩
  | some taken =>
    obtain ⟨⟨path, index, extended⟩, search₀⟩ := taken
    refine .inr ⟨path, index, extended, search₀, rfl, ?_⟩
    have hspec := scan_spec oracle path (search₀.commits.drop index) index extended search₀ budget
      slice
    dsimp only
    generalize scan oracle path (search₀.commits.drop index) index extended search₀ budget slice =
      r at hspec ⊢
    cases r with
    | failed err budget' => exact .inl ⟨err, budget', hspec, rfl⟩
    | paused search' budget' =>
      obtain ⟨w, k, n, hwalk, rfl, rfl, hn, hstop⟩ := hspec
      exact .inr (.inl ⟨w, k, n, hwalk, hn, hstop, rfl⟩)
    | finished search' extended' budget' slice' =>
      obtain ⟨w, hwalk, rfl, rfl, rfl, hcount, hstops⟩ := hspec
      exact .inr (.inr ⟨w, slice', hwalk, hcount, hstops, rfl⟩)

theorem CandidateSearch.advanceRound_lowers : Loop.Lowers (advanceRound oracle) workLeft := by
  rintro ⟨search, budget, slice⟩ s' h
  obtain ⟨-, hround⟩ | ⟨path, index, extended, search₀, htake, hrest⟩ :=
    advanceRound_cases oracle search budget slice
  · rw [hround] at h
    cases h
  obtain ⟨err, budget', -, hround⟩ | ⟨w, k, n, -, -, -, hround⟩ |
    ⟨w, slice', hwalk, -, -, hround⟩ := hrest
  · rw [hround] at h
    cases h
  · rw [hround] at h
    cases h
  · -- The path that was taken up is gone, and each new one has used up a probe.
    rw [hround] at h
    cases h
    obtain ⟨hactive, hlt⟩ := take_lowers htake budget slice
    have hle := walkCommits_bounded hwalk
    show (if search₀.active.isSome then 1 else 0) + w.frontier.length +
      w.budget.remaining.toNat < _
    rw [hactive]
    simp only [walk] at hle
    simp only [Option.isSome_none, Bool.false_eq_true, if_false]
    omega

/-- `CandidateSearch::advance`. -/
def CandidateSearch.advance : Advance :=
  Loop.run (advanceRound oracle) workLeft (advanceRound_lowers oracle) (search, budget, slice)

/-! ### The work that is left -/

section Remainder

variable (oracle : ProbeOracle)

/-- What a search ends with: the findings and the budget, or the budget and the error. -/
abbrev SearchEnd := Except (ReplayBudget × OpenMlsProjectionError) (SearchLog × ReplayBudget)

variable (pendingProposals : List TransportMessage) (commits : List StoredCommitMessage)

/-- The paths of `frontier`, one after the other. -/
def exploreAll (frontier : List CandidatePathProbe) (t : SearchLog × ReplayBudget) : SearchEnd :=
  Worklist.fifo (expandPath_bounded oracle pendingProposals commits) frontier t

/-- Close `path` after its walk, then take up the paths that wait. -/
def exploreAfter (path : CandidatePathProbe) :
    Except (ReplayBudget × OpenMlsProjectionError) Walk → SearchEnd
  | .error e => .error e
  | .ok w => exploreAll oracle pendingProposals commits w.frontier
      (w.log.close path w.extended, w.budget)

/-- What the search would end with if nothing stopped it. -/
def CandidateSearch.remainder (search : CandidateSearch) (budget : ReplayBudget) : SearchEnd :=
  match search.active with
  | some (path, index, extended) =>
    exploreAfter oracle search.pendingProposals search.commits path
      (walkCommits oracle search.pendingProposals path (search.commits.drop index)
        (search.walk budget extended))
  | none =>
    exploreAll oracle search.pendingProposals search.commits search.frontier
      (search.toSearchLog, budget)

variable {oracle}

theorem Walk.probe_frontier {pendingProposals : List TransportMessage} {path : CandidatePathProbe}
    (commit : StoredCommitMessage) (queue : List CandidatePathProbe) (w : Walk) :
    Walk.probe oracle pendingProposals path commit { w with frontier := queue ++ w.frontier } =
      (w.probe oracle pendingProposals path commit).map fun w' =>
        { w' with frontier := queue ++ w'.frontier } := by
  rcases hprobe : probeCandidatePath oracle pendingProposals (path.digests ++ [commit.digest])
    w.budget with ⟨budget, err | result⟩
  · simp only [Walk.probe, hprobe, Except.map]
  · rcases hrecord : (w.log.markSeen (path.digests ++ [commit.digest])).record commit result with
      ⟨log, _ | candidate⟩
    · simp only [Walk.probe, hprobe, hrecord, Except.map]
    · simp only [Walk.probe, hprobe, hrecord, Except.map, List.append_assoc]

/-- The paths a walk adds do not depend on those that wait already. -/
theorem walkCommits_frontier (oracle : ProbeOracle) (pendingProposals : List TransportMessage)
    (path : CandidatePathProbe) (commits : List StoredCommitMessage)
    (queue : List CandidatePathProbe) (w : Walk) :
    walkCommits oracle pendingProposals path commits { w with frontier := queue ++ w.frontier } =
      (walkCommits oracle pendingProposals path commits w).map fun w' =>
        { w' with frontier := queue ++ w'.frontier } := by
  induction commits generalizing w with
  | nil => rfl
  | cons commit rest ih =>
    rw [walkCommits, walkCommits]
    by_cases htries : path.tries commit w.log.seenPaths = true
    · rw [if_pos htries, if_pos htries, Walk.probe_frontier]
      cases w.probe oracle pendingProposals path commit with
      | error e => rfl
      | ok w₁ => exact ih w₁
    · rw [if_neg htries, if_neg htries]
      exact ih w

theorem CandidateSearch.remainder_of_inactive {search : CandidateSearch}
    (h : search.active = none) (budget : ReplayBudget) :
    search.remainder oracle budget =
      exploreAll oracle search.pendingProposals search.commits search.frontier
        (search.toSearchLog, budget) := by
  rw [remainder, h]

/-- Taking up a path leaves the work as it is. -/
theorem CandidateSearch.take_remainder (oracle : ProbeOracle) {search search' : CandidateSearch}
    {path : CandidatePathProbe} {index : Nat} {extended : Bool}
    (h : search.take = some ((path, index, extended), search')) (budget : ReplayBudget) :
    search.remainder oracle budget =
        exploreAfter oracle search'.pendingProposals search'.commits path
          (walkCommits oracle search'.pendingProposals path (search'.commits.drop index)
            (search'.walk budget extended)) ∧
      search'.unresolvedCommitIds = search.unresolvedCommitIds := by
  rw [take] at h
  rw [remainder]
  cases hactive : search.active with
  | some work =>
    rw [hactive] at h
    cases h
    exact ⟨rfl, rfl⟩
  | none =>
    rw [hactive] at h
    cases hfrontier : search.frontier with
    | nil =>
      rw [hfrontier] at h
      cases h
    | cons path frontier =>
      rw [hfrontier] at h
      cases h
      refine ⟨?_, rfl⟩
      -- The walk of a fresh path starts from the paths behind it.
      have hwalk := walkCommits_frontier oracle search.pendingProposals path search.commits
        frontier ⟨search.toSearchLog, budget, [], false⟩
      simp only [List.append_nil] at hwalk
      show exploreAll oracle search.pendingProposals search.commits (path :: frontier)
          (search.toSearchLog, budget) =
        exploreAfter oracle search.pendingProposals search.commits path
          (walkCommits oracle search.pendingProposals path search.commits
            ⟨search.toSearchLog, budget, frontier, false⟩)
      rw [hwalk, exploreAll]
      cases hw : walkCommits oracle search.pendingProposals path search.commits
          ⟨search.toSearchLog, budget, [], false⟩ with
      | error e =>
        refine Worklist.fifo_cons_error _ ?_ frontier
        rw [expandPath, hw]
      | ok w =>
        refine Worklist.fifo_cons_ok _ ?_ frontier
        rw [expandPath, hw]

theorem CandidateSearch.remainder_of_take_none {search : CandidateSearch}
    (h : search.take = none) (budget : ReplayBudget) :
    search.remainder oracle budget = .ok (search.toSearchLog, budget) := by
  rw [take] at h
  rw [remainder]
  cases hactive : search.active with
  | some work =>
    rw [hactive] at h
    cases h
  | none =>
    rw [hactive] at h
    cases hfrontier : search.frontier with
    | nil => exact Worklist.fifo_nil _ _
    | cons path frontier =>
      rw [hfrontier] at h
      cases h

end Remainder

/-! ### What a call does -/

/-- What each end of a call says about the work that was left. -/
def AdvanceSpec :
    Advance → Prop
  | .complete search' budget' =>
    search.remainder oracle budget = .ok (search'.toSearchLog, budget') ∧
      search'.unresolvedCommitIds = search.unresolvedCommitIds
  | .paused search' budget' =>
    search.remainder oracle budget = search'.remainder oracle budget' ∧
      search'.unresolvedCommitIds = search.unresolvedCommitIds ∧
      ∃ n, n + budget'.remaining.toNat = slice.started + budget.remaining.toNat ∧
        slice.StopsAt n
  | .failed err budget' => search.remainder oracle budget = .error (budget', err)

theorem advance_spec :
    AdvanceSpec oracle search budget slice (search.advance oracle budget slice) := by
  refine Loop.run_induction (P := fun s r => AdvanceSpec oracle s.1 s.2.1 s.2.2 r) ?_ ?_
    (search, budget, slice)
  · -- The round ends the call.
    rintro ⟨search, budget, slice⟩ r h
    obtain ⟨htake, hround⟩ | ⟨path, index, extended, search₀, htake, hrest⟩ :=
      advanceRound_cases oracle search budget slice
    · rw [hround] at h
      cases h
      exact ⟨remainder_of_take_none htake budget, rfl⟩
    obtain ⟨hremainder, hunresolved⟩ := take_remainder oracle htake budget
    obtain ⟨err, budget', hwalk, hround⟩ | ⟨w, k, n, hwalk, hn, hstop, hround⟩ |
      ⟨w, slice', -, -, -, hround⟩ := hrest
    · rw [hround] at h
      cases h
      show search.remainder oracle budget = _
      rw [hremainder, hwalk]
      rfl
    · rw [hround] at h
      cases h
      refine ⟨?_, hunresolved, n, hn, hstop⟩
      rw [hremainder, hwalk, List.drop_drop]
      rfl
    · rw [hround] at h
      cases h
  · -- The round closes its path, and the search goes on with those that wait.
    rintro ⟨search, budget, slice⟩ s' r h ih
    obtain ⟨-, hround⟩ | ⟨path, index, extended, search₀, htake, hrest⟩ :=
      advanceRound_cases oracle search budget slice
    · rw [hround] at h
      cases h
    obtain ⟨hremainder, hunresolved⟩ := take_remainder oracle htake budget
    obtain ⟨err, budget', -, hround⟩ | ⟨w, k, n, -, -, -, hround⟩ |
      ⟨w, slice', hwalk, hcount, hstops, hround⟩ := hrest
    · rw [hround] at h
      cases h
    · rw [hround] at h
      cases h
    · rw [hround] at h
      cases h
      have hactive : search₀.active = none := (take_lowers htake budget slice).1
      have hgoes : search.remainder oracle budget = remainder oracle
          { search₀.withWalk w with toSearchLog := w.log.close path w.extended } w.budget := by
        rw [hremainder, hwalk]
        refine Eq.symm (remainder_of_inactive ?_ w.budget)
        exact hactive
      cases r with
      | complete search'' budget'' =>
        exact ⟨hgoes.trans ih.1, ih.2.trans hunresolved⟩
      | paused search'' budget'' =>
        obtain ⟨hrem, hunres, n, hn, hstop⟩ := ih
        exact ⟨hgoes.trans hrem, hunres.trans hunresolved, n, hn.trans hcount,
          (hstops n).mp hstop⟩
      | failed err budget'' => exact hgoes.trans ih

/-! ### Slice after slice -/

variable (slices : Nat → (Nat → Bool) × Nat)

/-- One slice after the other, each with its clock and its limit. -/
def CandidateSearch.driveRound :
    Nat × CandidateSearch × ReplayBudget →
      (Nat × CandidateSearch × ReplayBudget) ⊕
        (ReplayBudget × Except OpenMlsProjectionError StoredOpenMlsCandidatePathResult)
  | (k, search, budget) =>
    match search.advance oracle budget (.new (slices k).1 (slices k).2) with
    | .complete search budget =>
      .inr (budget, .ok (search.toSearchLog.finish oracle search.unresolvedCommitIds))
    | .paused search budget => .inl (k + 1, search, budget)
    | .failed err budget => .inr (budget, .error err)

/-- Every slice makes at least one probe. -/
theorem CandidateSearch.driveRound_lowers :
    Loop.Lowers (driveRound oracle slices) fun s => s.2.2.remaining.toNat := by
  rintro ⟨k, search, budget⟩ s' h
  have hspec := advance_spec oracle search budget (.new (slices k).1 (slices k).2)
  rw [driveRound] at h
  generalize search.advance oracle budget (.new (slices k).1 (slices k).2) = r at h hspec
  cases r with
  | complete search' budget' => cases h
  | failed err budget' => cases h
  | paused search' budget' =>
    cases h
    obtain ⟨-, -, n, hn, hstop, -⟩ := hspec
    simp only [ReplaySlice.new] at hn
    show budget'.remaining.toNat < budget.remaining.toNat
    omega

/-- Drive the search to its end and finish it. -/
def CandidateSearch.drive (search : CandidateSearch) (budget : ReplayBudget) :
    ReplayBudget × Except OpenMlsProjectionError StoredOpenMlsCandidatePathResult :=
  Loop.run (driveRound oracle slices) _ (driveRound_lowers oracle slices) (0, search, budget)

variable (commits : List StoredCommitMessage) (pending : List TransportMessage)
  (startingEpoch : UInt64)

/-- The search in slices. -/
def buildStoredOpenmlsCandidatePathsSliced (budget : ReplayBudget) :
    ReplayBudget × Except OpenMlsProjectionError StoredOpenMlsCandidatePathResult :=
  match CandidateSearch.new oracle commits pending startingEpoch with
  | .error err => (budget, .error err)
  | .ok search => search.drive oracle slices budget

/-- `build_stored_openmls_candidate_paths`: one unlimited slice, which is taken to
complete the search. -/
def buildStoredOpenmlsCandidatePaths (budget : ReplayBudget) :
    ReplayBudget × Except OpenMlsProjectionError StoredOpenMlsCandidatePathResult :=
  match CandidateSearch.new oracle commits pending startingEpoch with
  | .error err => (budget, .error err)
  | .ok search =>
    match search.advance oracle budget .unlimited with
    | .complete search budget | .paused search budget =>
      (budget, .ok (search.toSearchLog.finish oracle search.unresolvedCommitIds))
    | .failed err budget => (budget, .error err)

/-- The result of a search that ends as `e`. -/
def SearchEnd.result (unresolvedCommitIds : ExtTreeSet String) :
    SearchEnd → ReplayBudget × Except OpenMlsProjectionError StoredOpenMlsCandidatePathResult
  | .error (budget, err) => (budget, .error err)
  | .ok (log, budget) => (budget, .ok (log.finish oracle unresolvedCommitIds))

open SearchEnd

theorem CandidateSearch.drive_eq (search : CandidateSearch) (budget : ReplayBudget) :
    search.drive oracle slices budget =
      result oracle search.unresolvedCommitIds (search.remainder oracle budget) := by
  refine Loop.run_induction (P := fun s r => r = result oracle
    s.2.1.unresolvedCommitIds (s.2.1.remainder oracle s.2.2)) ?_ ?_ (0, search, budget)
  · rintro ⟨k, search, budget⟩ r h
    have hspec := advance_spec oracle search budget (.new (slices k).1 (slices k).2)
    rw [driveRound] at h
    generalize search.advance oracle budget (.new (slices k).1 (slices k).2) = a at h hspec
    cases a with
    | complete search' budget' =>
      cases h
      show _ = result oracle search.unresolvedCommitIds (search.remainder oracle budget)
      rw [hspec.1, hspec.2]
      rfl
    | paused search' budget' => cases h
    | failed err budget' =>
      cases h
      show _ = result oracle search.unresolvedCommitIds (search.remainder oracle budget)
      rw [show search.remainder oracle budget = _ from hspec]
      rfl
  · rintro ⟨k, search, budget⟩ s' r h ih
    have hspec := advance_spec oracle search budget (.new (slices k).1 (slices k).2)
    rw [driveRound] at h
    generalize search.advance oracle budget (.new (slices k).1 (slices k).2) = a at h hspec
    cases a with
    | complete search' budget' => cases h
    | failed err budget' => cases h
    | paused search' budget' =>
      cases h
      obtain ⟨hremainder, hunresolved, -⟩ := hspec
      show r = result oracle search.unresolvedCommitIds (search.remainder oracle budget)
      rw [hremainder, ← hunresolved]
      exact ih

/-- The reference, as the work a new search has before it. -/
theorem reference_eq (budget : ReplayBudget) :
    buildStoredOpenmlsCandidatePathsReference oracle commits pending startingEpoch budget =
      match new oracle commits pending startingEpoch with
      | .error err => (budget, .error err)
      | .ok search =>
        result oracle search.unresolvedCommitIds (search.remainder oracle budget) := by
  rw [buildStoredOpenmlsCandidatePathsReference, new]
  cases pendingProposalMessages oracle pending with
  | error err => rfl
  | ok pendingProposals =>
    simp only [Worklist.levels_eq_fifo, referencePath_eq]
    rw [remainder_of_inactive rfl, exploreAll]
    dsimp only [CandidatePathProbe.root]
    cases Worklist.fifo (expandPath_bounded oracle pendingProposals
      (sortBy compareStoredCommits commits)) [⟨[], [], startingEpoch, none⟩] ({}, budget) <;> rfl

/-- The search in one unlimited slice does the work of a new search, which the slice
completes unless the budget lets it run into `usize::MAX` probes. -/
theorem unlimited_eq {budget : ReplayBudget} (hbudget : budget.remaining.toNat < usizeMax) :
    buildStoredOpenmlsCandidatePaths oracle commits pending startingEpoch budget =
      match new oracle commits pending startingEpoch with
      | .error err => (budget, .error err)
      | .ok search =>
        result oracle search.unresolvedCommitIds (search.remainder oracle budget) := by
  rw [buildStoredOpenmlsCandidatePaths]
  cases new oracle commits pending startingEpoch with
  | error err => rfl
  | ok search =>
    have hspec := advance_spec oracle search budget .unlimited
    dsimp only
    generalize search.advance oracle budget .unlimited = a at hspec
    cases a with
    | complete search' budget' =>
      rw [hspec.1, ← hspec.2]
      rfl
    | failed err budget' =>
      rw [show search.remainder oracle budget = _ from hspec]
      rfl
    | paused search' budget' =>
      -- It would have started `usizeMax` probes.
      obtain ⟨-, -, n, hn, -, hstop⟩ := hspec
      simp only [ReplaySlice.unlimited, Bool.false_eq_true, or_false] at hn hstop
      omega

/-- **Slicing does not change the search.**  For every sequence of slices the sliced
search ends as the frozen reference does: with the same result, or the same error,
and with the same budget left, so after the same probes.  The search in one
unlimited slice does too, which its slice completes unless the budget lets it run
into `usize::MAX` probes. -/
theorem sliced_search_eq_reference (oracle : ProbeOracle) (slices : Nat → (Nat → Bool) × Nat)
    (commits : List StoredCommitMessage) (pending : List TransportMessage)
    (startingEpoch : UInt64) (budget : ReplayBudget) :
    buildStoredOpenmlsCandidatePathsSliced oracle slices commits pending startingEpoch budget =
        buildStoredOpenmlsCandidatePathsReference oracle commits pending startingEpoch budget ∧
      (budget.remaining.toNat < usizeMax →
        buildStoredOpenmlsCandidatePaths oracle commits pending startingEpoch budget =
          buildStoredOpenmlsCandidatePathsReference oracle commits pending startingEpoch
            budget) := by
  refine ⟨?_, fun hbudget => ?_⟩
  · rw [reference_eq, buildStoredOpenmlsCandidatePathsSliced]
    cases new oracle commits pending startingEpoch with
    | error err => rfl
    | ok search => exact search.drive_eq oracle slices budget
  · rw [reference_eq, unlimited_eq oracle commits pending startingEpoch hbudget]

/-- The small fork in slices of two probes, with a budget of a hundred. -/
theorem sliced_search_eq_reference_fork :
    (ReplayBudget.new 100).remaining.toNat < usizeMax ∧
      buildStoredOpenmlsCandidatePathsSliced forkOracle (fun _ => (fun _ => false, 2))
          [forkChild, forkSibling, forkParent] [] 10 (.new 100) =
        buildStoredOpenmlsCandidatePaths forkOracle [forkChild, forkSibling, forkParent] [] 10
          (.new 100) := by
  have hbudget : (ReplayBudget.new 100).remaining.toNat < usizeMax := by decide
  have hsliced := sliced_search_eq_reference forkOracle (fun _ => (fun _ => false, 2))
    [forkChild, forkSibling, forkParent] [] 10 (.new 100)
  exact ⟨hbudget, hsliced.1.trans (hsliced.2 hbudget).symm⟩

end Mdk
