/-
The search for candidate paths (`CandidateSearch` of `resumable.rs`, and
`probe_candidate_path`, `ReplayBudget` and
`build_stored_openmls_candidate_paths_reference` of `openmls_projection.rs`).

A candidate path is a sequence of stored commits that MLS can replay one after the
other.  The search starts from the empty path and probes, for every path it has
reached, every commit of matching epoch; a probe that materializes gives a longer
path, and a path without extensions is completed.  `CandidateSearch.advance` works
in slices: it stops before a probe the slice does not allow and keeps its place.
The reference walks the same paths level by level in one go.

MLS itself is the parameter `ProbeOracle`.
-/
import Mdk.Worklist
import Mdk.Canonicalization

open Std (ExtTreeMap ExtTreeSet TransCmp)
open Comparison

namespace Mdk

/-! ### Stored messages -/

inductive OpenMlsContentKind where
  | application
  | proposal
  | commit
  | welcome
  | other
deriving DecidableEq, Repr

inductive MessageState where
  | sent
  | created
  | processed
  | failed
  | retryable
  | convergenceDeferred
  | peelDeferred
  | epochInvalidated
deriving DecidableEq, Repr

inductive TransportEnvelope where
  | groupMessage (transportGroupId : List UInt8)
  | welcome (recipient : List UInt8)
deriving DecidableEq, Repr

structure TransportMessage where
  id : String
  payload : List UInt8
  source : String
  envelope : TransportEnvelope
deriving DecidableEq, Repr

structure StoredCommitMessage where
  message : TransportMessage
  sourceEpoch : UInt64
  digest : Digest
  state : MessageState
deriving DecidableEq, Repr

def unresolvedCommitState : MessageState → Bool
  | .sent | .created | .retryable | .convergenceDeferred => true
  | .processed | .failed | .peelDeferred | .epochInvalidated => false

inductive OpenMlsProjectionError where
  | decode (text : String)
  | emptyCandidatePath (branchId : String)
  | candidatePathDidNotCommit (branchId : String)
  | unsupportedMessageKind (kind : OpenMlsContentKind)
  | missingGroup
  | snapshot (text : String)
  | replay (text : String)
  | rejectedProposal (messageId : String) (category : ProposalRejectionCategory)
  | unauthorizedCommit (messageId : String)
  | invalidCommit (messageId : String) (reason : String)
      (rejectionCategory : Option ProposalRejectionCategory)
  | serialize (text : String)
  | storage (text : String)
  | invalidPolicy (text : String)
  | replayBudgetExceeded
  | missingOwnCommitCheckpoint
  | checkpointStateMismatch
deriving DecidableEq, Repr

structure OpenMlsMaterializedCandidate where
  branchId : String
  forkEpoch : UInt64
  tipEpoch : UInt64
  tipPriority : CommitOrderingPriority
  tipCommitter : List UInt8
  tipDigest : Digest
  commitMessageIds : List String
  consumedProposalRefs : List String
deriving DecidableEq, Repr

structure OpenMlsCandidatePath where
  branchId : String
  messages : List TransportMessage
deriving DecidableEq, Repr

/-- A path the search has reached. -/
structure CandidatePathProbe where
  messages : List TransportMessage
  digests : List Digest
  tipEpoch : UInt64
  materialized : Option OpenMlsMaterializedCandidate
deriving DecidableEq, Repr

structure StoredOpenMlsCandidatePathResult where
  candidatePaths : List OpenMlsCandidatePath
  materialized : List OpenMlsMaterializedCandidate
  invalidCommitDrops : List DroppedMessage
  unmaterializedCommitIds : List String
deriving DecidableEq, Repr

inductive CandidatePathProbeResult where
  | materialized (candidate : Option OpenMlsMaterializedCandidate)
  | rejectedProposal (messageId : String) (category : ProposalRejectionCategory)
  | unauthorizedCommit (messageId : String)
  | invalidCommit (messageId : String) (rejectionCategory : Option ProposalRejectionCategory)
deriving DecidableEq, Repr

/-! ### Probing -/

/-- What MLS and the hash say: the content kind of a wire message
(`project_mls_message`), the name of a path (`branch_id_for_path_digests`), whether
the pending proposals can be placed on it
(`candidate_paths_with_pending_replay_messages`) and what its replay gives.  The last
two are functions of the proposals and the digests of the path. -/
structure ProbeOracle where
  projectKind : List UInt8 → Except OpenMlsProjectionError OpenMlsContentKind
  branchIdForPathDigests : List Digest → String
  prepare : List TransportMessage → List Digest → Except OpenMlsProjectionError Unit
  replay : List TransportMessage → List Digest →
    Except OpenMlsProjectionError OpenMlsMaterializedCandidate

structure ReplayBudget where
  remaining : UInt64
  consumed : UInt64
deriving DecidableEq, Repr

def ReplayBudget.new (limit : UInt64) : ReplayBudget := ⟨limit, 0⟩

def ReplayBudget.consume (budget : ReplayBudget) :
    Except OpenMlsProjectionError ReplayBudget :=
  if budget.remaining = 0 then .error .replayBudgetExceeded
  else .ok ⟨budget.remaining - 1, budget.consumed.saturatingAdd 1⟩

/-- The errors of a replay that are a verdict on the path. -/
def CandidatePathProbeResult.ofReplay :
    Except OpenMlsProjectionError OpenMlsMaterializedCandidate →
      Except OpenMlsProjectionError CandidatePathProbeResult
  | .ok candidate => .ok (.materialized (some candidate))
  | .error (.rejectedProposal messageId category) => .ok (.rejectedProposal messageId category)
  | .error (.unauthorizedCommit messageId) => .ok (.unauthorizedCommit messageId)
  | .error (.invalidCommit messageId _ rejectionCategory) =>
    .ok (.invalidCommit messageId rejectionCategory)
  | .error (.replay _) => .ok (.materialized none)
  -- Everything else is a failure of the device, not of the path.
  | .error err => .error err

variable (oracle : ProbeOracle) (pendingProposals : List TransportMessage)

/-- One probe, and the budget it leaves, whether it fails or not. -/
def probeCandidatePath (digests : List Digest) (budget : ReplayBudget) :
    ReplayBudget × Except OpenMlsProjectionError CandidatePathProbeResult :=
  match oracle.prepare pendingProposals digests with
  -- A path that cannot be prepared costs nothing.
  | .error err => (budget, .error err)
  | .ok () =>
    match budget.consume with
    | .error err => (budget, .error err)
    | .ok budget =>
      (budget, CandidatePathProbeResult.ofReplay (oracle.replay pendingProposals digests))

def pendingProposalMessages (oracle : ProbeOracle) :
    List TransportMessage → Except OpenMlsProjectionError (List TransportMessage)
  | [] => .ok []
  | message :: messages =>
    match oracle.projectKind message.payload with
    | .error err => .error err
    | .ok kind =>
      match pendingProposalMessages oracle messages with
      | .error err => .error err
      | .ok proposals =>
        .ok (if kind = .proposal then message :: proposals else proposals)

/-! ### What a search has found -/

/-- Paths are kept in a set ordered by their digests. -/
instance : Std.TransOrd (List Digest) := List.instTransOrd

/-- The part of a search that is its findings. -/
structure SearchLog where
  completed : List CandidatePathProbe := []
  invalidCommitDrops : List DroppedMessage := []
  replayRejectedCommitIds : ExtTreeSet String := ∅
  materializedCommitIds : ExtTreeSet String := ∅
  seenPaths : ExtTreeSet (List Digest) := insert [] ∅

/-- A commit that is invalid against the state it was probed on. -/
def invalidCommitDrop (messageId : String)
    (rejectionCategory : Option ProposalRejectionCategory) : DroppedMessage :=
  ⟨messageId, .commit, .invalidAgainstCandidateState, rejectionCategory⟩

variable (log : SearchLog)

/-- Note the result of probing `commit`; a candidate, if the path goes on. -/
def SearchLog.record (commit : StoredCommitMessage) :
    CandidatePathProbeResult → SearchLog × Option OpenMlsMaterializedCandidate
  | .materialized (some candidate) =>
    ({ log with
        materializedCommitIds := log.materializedCommitIds.insert commit.message.id },
      some candidate)
  | .materialized none =>
    ({ log with
        replayRejectedCommitIds := log.replayRejectedCommitIds.insert commit.message.id },
      none)
  | .rejectedProposal messageId category =>
    ({ log with
        invalidCommitDrops := log.invalidCommitDrops ++
          [⟨messageId, .proposal, .invalidAgainstCandidateState, some category⟩,
            invalidCommitDrop commit.message.id none] },
      none)
  | .unauthorizedCommit messageId =>
    ({ log with
        invalidCommitDrops := log.invalidCommitDrops ++ [invalidCommitDrop messageId none] },
      none)
  | .invalidCommit messageId rejectionCategory =>
    ({ log with
        invalidCommitDrops :=
          log.invalidCommitDrops ++ [invalidCommitDrop messageId rejectionCategory] },
      none)

def SearchLog.markSeen (digests : List Digest) : SearchLog :=
  { log with seenPaths := log.seenPaths.insert digests }

/-- A path whose commits have all been tried. -/
def SearchLog.close (path : CandidatePathProbe) (extended : Bool) : SearchLog :=
  if !path.messages.isEmpty && !extended then
    { log with completed := log.completed ++ [path] }
  else log

def CandidatePathProbe.root (startingEpoch : UInt64) : CandidatePathProbe :=
  ⟨[], [], startingEpoch, none⟩

variable (path : CandidatePathProbe) (commit : StoredCommitMessage)

def CandidatePathProbe.child (candidate : OpenMlsMaterializedCandidate) : CandidatePathProbe :=
  ⟨path.messages ++ [commit.message], path.digests ++ [commit.digest], candidate.tipEpoch,
    some candidate⟩

/-- The commit is to be probed on the path: it starts at the path's tip, is not on
the path, and the two together have not been probed before. -/
def CandidatePathProbe.tries (seenPaths : ExtTreeSet (List Digest)) : Bool :=
  !(decide (commit.sourceEpoch ≠ path.tipEpoch) || path.digests.contains commit.digest) &&
    !seenPaths.contains (path.digests ++ [commit.digest])

def compareStoredCommits (a b : StoredCommitMessage) : Ordering :=
  ((compare a.sourceEpoch b.sourceEpoch).then (compare a.digest b.digest)).then
    (compare a.message.payload b.message.payload)

variable (commits : List StoredCommitMessage)

def unresolvedCommitIds : ExtTreeSet String :=
  .ofList ((commits.filter fun commit => unresolvedCommitState commit.state).map
    fun commit => commit.message.id)

/-- `CandidateSearch::finish`. -/
def SearchLog.finish (log : SearchLog) (unresolvedCommitIds : ExtTreeSet String) :
    StoredOpenMlsCandidatePathResult :=
  -- A commit that replayed nowhere and failed somewhere is dropped for good.
  let rejected := log.replayRejectedCommitIds.toList.filter fun messageId =>
    !log.materializedCommitIds.contains messageId
  let invalidCommitDrops := log.invalidCommitDrops ++
    rejected.map fun messageId => invalidCommitDrop messageId none
  let terminalCommitIds := (invalidCommitDrops.filter fun dropped =>
    decide (dropped.kind = .commit)).map DroppedMessage.messageId
  { candidatePaths := log.completed.map fun path =>
      ⟨oracle.branchIdForPathDigests path.digests, path.messages⟩
    materialized := log.completed.filterMap CandidatePathProbe.materialized
    invalidCommitDrops := invalidCommitDrops
    unmaterializedCommitIds := (unresolvedCommitIds.toList.filter fun messageId =>
      !log.materializedCommitIds.contains messageId).filter fun messageId =>
        !terminalCommitIds.contains messageId }

/-! ### The walk over one path -/

/-- The loop over the commits of one path: the findings, the budget, the paths the
next ones are added to, and whether there was one. -/
structure Walk where
  log : SearchLog
  budget : ReplayBudget
  frontier : List CandidatePathProbe
  extended : Bool

/-- Probe `commit` on `path` and note what comes of it. -/
def Walk.probe (w : Walk) : Except (ReplayBudget × OpenMlsProjectionError) Walk :=
  let digests := path.digests ++ [commit.digest]
  match probeCandidatePath oracle pendingProposals digests w.budget with
  | (budget, .error err) => .error (budget, err)
  | (budget, .ok result) =>
    match (w.log.markSeen digests).record commit result with
    | (log, none) => .ok ⟨log, budget, w.frontier, w.extended⟩
    | (log, some candidate) =>
      .ok ⟨log, budget, w.frontier ++ [path.child commit candidate], true⟩

/-- The commits of one path, one after the other. -/
def walkCommits (oracle : ProbeOracle) (pendingProposals : List TransportMessage)
    (path : CandidatePathProbe) :
    List StoredCommitMessage → Walk → Except (ReplayBudget × OpenMlsProjectionError) Walk
  | [], w => .ok w
  | commit :: rest, w =>
    if path.tries commit w.log.seenPaths then
      match w.probe oracle pendingProposals path commit with
      | .error e => .error e
      | .ok w' => walkCommits oracle pendingProposals path rest w'
    else walkCommits oracle pendingProposals path rest w

/-- One path of the search and all commits. -/
def expandPath (path : CandidatePathProbe) (t : SearchLog × ReplayBudget) :
    Except (ReplayBudget × OpenMlsProjectionError)
      ((SearchLog × ReplayBudget) × List CandidatePathProbe) :=
  match walkCommits oracle pendingProposals path commits ⟨t.1, t.2, [], false⟩ with
  | .error e => .error e
  | .ok w => .ok ((w.log.close path w.extended, w.budget), w.frontier)

section Walk

variable {oracle : ProbeOracle} {pendingProposals : List TransportMessage}
  {path : CandidatePathProbe}

/-- A probe that gives a result has used up one unit of the budget. -/
theorem probeCandidatePath_ok {digests : List Digest} {budget budget' : ReplayBudget}
    {result : CandidatePathProbeResult}
    (h : probeCandidatePath oracle pendingProposals digests budget = (budget', .ok result)) :
    budget'.remaining.toNat + 1 = budget.remaining.toNat := by
  rw [probeCandidatePath] at h
  split at h
  · cases h
  · rw [ReplayBudget.consume] at h
    by_cases hzero : budget.remaining = 0
    · rw [if_pos hzero] at h
      cases h
    · rw [if_neg hzero] at h
      obtain rfl := congrArg Prod.fst h
      have hpos : budget.remaining.toNat ≠ 0 := fun h0 => hzero (UInt64.toNat_inj.mp h0)
      have hle : (1 : UInt64) ≤ budget.remaining := by
        rw [UInt64.le_iff_toNat_le]
        exact Nat.one_le_iff_ne_zero.mpr hpos
      show (budget.remaining - 1).toNat + 1 = budget.remaining.toNat
      rw [UInt64.toNat_sub_of_le _ _ hle]
      exact Nat.succ_pred_eq_of_ne_zero hpos

/-- A probe of a walk: one unit of the budget, one path more at most. -/
theorem Walk.probe_ok {commit : StoredCommitMessage} {w w' : Walk}
    (h : w.probe oracle pendingProposals path commit = .ok w') :
    w'.budget.remaining.toNat + 1 = w.budget.remaining.toNat ∧
      w'.frontier.length ≤ w.frontier.length + 1 := by
  rw [Walk.probe] at h
  split at h
  · cases h
  · rename_i budget result hprobe
    have hbudget := probeCandidatePath_ok hprobe
    split at h
    · cases h
      exact ⟨hbudget, Nat.le_succ _⟩
    · cases h
      exact ⟨hbudget, by simp⟩

/-- Every path a walk adds has used up a probe. -/
theorem walkCommits_bounded {commits : List StoredCommitMessage} {w w' : Walk}
    (h : walkCommits oracle pendingProposals path commits w = .ok w') :
    w'.frontier.length + w'.budget.remaining.toNat ≤
      w.frontier.length + w.budget.remaining.toNat := by
  induction commits generalizing w with
  | nil =>
    cases h
    exact Nat.le_refl _
  | cons commit rest ih =>
    rw [walkCommits] at h
    by_cases htries : path.tries commit w.log.seenPaths = true
    · rw [if_pos htries] at h
      cases hprobe : w.probe oracle pendingProposals path commit with
      | error e =>
        rw [hprobe] at h
        cases h
      | ok w₁ =>
        rw [hprobe] at h
        have hle := ih h
        obtain ⟨hbudget, hfrontier⟩ := Walk.probe_ok hprobe
        omega
    · rw [if_neg htries] at h
      exact ih h

theorem expandPath_bounded (oracle : ProbeOracle) (pendingProposals : List TransportMessage)
    (commits : List StoredCommitMessage) :
    Worklist.Bounded (expandPath oracle pendingProposals commits)
      fun t => t.2.remaining.toNat := by
  intro path t t' out h
  rw [expandPath] at h
  cases hwalk : walkCommits oracle pendingProposals path commits ⟨t.1, t.2, [], false⟩ with
  | error e =>
    rw [hwalk] at h
    cases h
  | ok w =>
    rw [hwalk] at h
    cases h
    have hle := walkCommits_bounded hwalk
    rwa [List.length_nil, Nat.zero_add] at hle

end Walk

/-! ### The frozen reference

`build_stored_openmls_candidate_paths_reference` has a body of its own, which shares with the
search the probe and nothing else.  Its variables are those of a `Walk`. -/

/-- The body of the loop over the commits. -/
def referenceCommit (w : Walk) (commit : StoredCommitMessage) :
    Except (ReplayBudget × OpenMlsProjectionError) Walk :=
  if commit.sourceEpoch ≠ path.tipEpoch ∨ commit.digest ∈ path.digests then .ok w
  else
    let messages := path.messages ++ [commit.message]
    let digests := path.digests ++ [commit.digest]
    if digests ∈ w.log.seenPaths then .ok w
    else
      let log := { w.log with seenPaths := w.log.seenPaths.insert digests }
      let drop (dropped : List DroppedMessage) :=
        { log with invalidCommitDrops := log.invalidCommitDrops ++ dropped }
      match probeCandidatePath oracle pendingProposals digests w.budget with
      | (budget, .error err) => .error (budget, err)
      | (budget, .ok (.materialized (some candidate))) =>
        .ok ⟨{ log with
            materializedCommitIds := log.materializedCommitIds.insert commit.message.id },
          budget, w.frontier ++ [⟨messages, digests, candidate.tipEpoch, some candidate⟩], true⟩
      | (budget, .ok (.materialized none)) =>
        .ok { w with
          log := { log with
            replayRejectedCommitIds := log.replayRejectedCommitIds.insert commit.message.id }
          budget }
      | (budget, .ok (.rejectedProposal messageId category)) =>
        .ok { w with
          log := drop [⟨messageId, .proposal, .invalidAgainstCandidateState, some category⟩,
            ⟨commit.message.id, .commit, .invalidAgainstCandidateState, none⟩]
          budget }
      | (budget, .ok (.unauthorizedCommit messageId)) =>
        .ok { w with
          log := drop [⟨messageId, .commit, .invalidAgainstCandidateState, none⟩], budget }
      | (budget, .ok (.invalidCommit messageId rejectionCategory)) =>
        .ok { w with
          log := drop [⟨messageId, .commit, .invalidAgainstCandidateState, rejectionCategory⟩]
          budget }

/-- The body of the loop over the frontier. -/
def referencePath (path : CandidatePathProbe) (t : SearchLog × ReplayBudget) :
    Except (ReplayBudget × OpenMlsProjectionError)
      ((SearchLog × ReplayBudget) × List CandidatePathProbe) :=
  match commits.foldlM (referenceCommit oracle pendingProposals path) ⟨t.1, t.2, [], false⟩ with
  | .error e => .error e
  | .ok w => .ok ((if path.messages ≠ [] ∧ w.extended = false then
      { w.log with completed := w.log.completed ++ [path] } else w.log, w.budget), w.frontier)

theorem referenceCommit_eq (w : Walk) :
    referenceCommit oracle pendingProposals path w commit =
      if path.tries commit w.log.seenPaths then w.probe oracle pendingProposals path commit
      else .ok w := by
  have htries : path.tries commit w.log.seenPaths = true ↔
      ¬(commit.sourceEpoch ≠ path.tipEpoch ∨ commit.digest ∈ path.digests) ∧
        path.digests ++ [commit.digest] ∉ w.log.seenPaths := by
    simp [CandidatePathProbe.tries, ← ExtTreeSet.contains_iff_mem]
  unfold referenceCommit
  by_cases hskip : commit.sourceEpoch ≠ path.tipEpoch ∨ commit.digest ∈ path.digests
  · rw [if_pos hskip, if_neg fun h => (htries.mp h).1 hskip]
  · rw [if_neg hskip]
    by_cases hseen : path.digests ++ [commit.digest] ∈ w.log.seenPaths
    · rw [if_pos hseen, if_neg fun h => (htries.mp h).2 hseen]
    · rw [if_neg hseen, if_pos (htries.mpr ⟨hskip, hseen⟩), Walk.probe]
      rcases probeCandidatePath oracle pendingProposals (path.digests ++ [commit.digest])
        w.budget with ⟨budget, err | ⟨_ | candidate⟩ | _ | _ | _⟩ <;> rfl

/-- The reference takes the steps of the search. -/
theorem referencePath_eq :
    referencePath oracle pendingProposals commits =
      expandPath oracle pendingProposals commits := by
  have hwalk : ∀ path w, commits.foldlM (referenceCommit oracle pendingProposals path) w =
      walkCommits oracle pendingProposals path commits w := by
    intro path
    induction commits with
    | nil => exact fun w => rfl
    | cons commit rest ih =>
      intro w
      rw [List.foldlM_cons, referenceCommit_eq, walkCommits]
      split
      · cases w.probe oracle pendingProposals path commit with
        | error e => rfl
        | ok w' => exact ih w'
      · exact ih w
  funext path t
  rw [referencePath, hwalk, expandPath]
  cases walkCommits oracle pendingProposals path commits ⟨t.1, t.2, [], false⟩ with
  | error e => rfl
  | ok w =>
    simp only [SearchLog.close, Bool.and_eq_true, Bool.not_eq_true', List.isEmpty_eq_false_iff]

theorem referencePath_bounded :
    Worklist.Bounded (referencePath oracle pendingProposals commits)
      fun t => t.2.remaining.toNat := by
  rw [referencePath_eq]
  exact expandPath_bounded oracle pendingProposals commits

/-- The budget at the end, and the result or the error. -/
def buildStoredOpenmlsCandidatePathsReference (pending : List TransportMessage)
    (startingEpoch : UInt64) (budget : ReplayBudget) :
    ReplayBudget × Except OpenMlsProjectionError StoredOpenMlsCandidatePathResult :=
  let commits := sortBy compareStoredCommits commits
  match pendingProposalMessages oracle pending with
  | .error err => (budget, .error err)
  | .ok pendingProposals =>
    match Worklist.levels (referencePath_bounded oracle pendingProposals commits)
        [⟨[], [], startingEpoch, none⟩] ({}, budget) with
    | .error (budget, err) => (budget, .error err)
    | .ok (log, budget) =>
      let invalidCommitDrops := log.invalidCommitDrops ++
        (log.replayRejectedCommitIds.toList.filter fun messageId =>
          !log.materializedCommitIds.contains messageId).map fun messageId =>
            ⟨messageId, .commit, .invalidAgainstCandidateState, none⟩
      let terminalCommitIds := (invalidCommitDrops.filter fun dropped =>
        decide (dropped.kind = .commit)).map DroppedMessage.messageId
      (budget, .ok
        { candidatePaths := log.completed.map fun path =>
            ⟨oracle.branchIdForPathDigests path.digests, path.messages⟩
          materialized := log.completed.filterMap CandidatePathProbe.materialized
          invalidCommitDrops
          unmaterializedCommitIds := ((unresolvedCommitIds commits).toList.filter fun messageId =>
            !log.materializedCommitIds.contains messageId).filter fun messageId =>
              !terminalCommitIds.contains messageId })

/-! ### Slices -/

/-- The scheduling allowance of one call.  `expired n` is what the clock says about
the deadline when the probe after the first `n` asks. -/
structure ReplaySlice where
  expired : Nat → Bool
  limit : Nat
  started : Nat

def ReplaySlice.new (expired : Nat → Bool) (limit : Nat) : ReplaySlice :=
  ⟨expired, max limit 1, 0⟩

def usizeMax : Nat := 2 ^ 64 - 1

def ReplaySlice.unlimited : ReplaySlice := ⟨fun _ => false, usizeMax, 0⟩

/-- The slice with one probe more, unless it is used up. -/
def ReplaySlice.startProbe (slice : ReplaySlice) : Option ReplaySlice :=
  if slice.started ≠ 0 ∧ (slice.limit ≤ slice.started ∨ slice.expired slice.started = true) then
    none
  else some { slice with started := slice.started + 1 }

/-! ### The resumable search -/

structure CandidateSearch extends SearchLog where
  commits : List StoredCommitMessage
  pendingProposals : List TransportMessage
  frontier : List CandidatePathProbe
  /-- The path the search was paused on, the index of the next commit to try, and
  whether the path has been extended. -/
  active : Option (CandidatePathProbe × Nat × Bool)
  unresolvedCommitIds : ExtTreeSet String

def CandidateSearch.new (pending : List TransportMessage) (startingEpoch : UInt64) :
    Except OpenMlsProjectionError CandidateSearch :=
  let commits := sortBy compareStoredCommits commits
  match pendingProposalMessages oracle pending with
  | .error err => .error err
  | .ok pendingProposals =>
    .ok { commits := commits
          pendingProposals := pendingProposals
          frontier := [CandidatePathProbe.root startingEpoch]
          active := none
          unresolvedCommitIds := Mdk.unresolvedCommitIds commits }

/-- How the loop over the commits of one path ends. -/
inductive Scan where
  | finished (search : CandidateSearch) (extended : Bool) (budget : ReplayBudget)
      (slice : ReplaySlice)
  | paused (search : CandidateSearch) (budget : ReplayBudget)
  | failed (err : OpenMlsProjectionError) (budget : ReplayBudget)

/-- The loop over the commits from `index` on, which are `commits`. -/
def CandidateSearch.scan (oracle : ProbeOracle) (path : CandidatePathProbe) :
    (commits : List StoredCommitMessage) → (index : Nat) → (extended : Bool) →
      CandidateSearch → ReplayBudget → ReplaySlice → Scan
  | [], _, extended, search, budget, slice => .finished search extended budget slice
  | commit :: rest, index, extended, search, budget, slice =>
    if path.tries commit search.seenPaths then
      match slice.startProbe with
      -- Stop before the probe: the commit is tried again by the next slice.
      | none => .paused { search with active := some (path, index, extended) } budget
      | some slice =>
        match Walk.probe oracle search.pendingProposals path commit
            ⟨search.toSearchLog, budget, search.frontier, extended⟩ with
        | .error (budget, err) => .failed err budget
        | .ok w =>
          scan oracle path rest (index + 1) w.extended
            { search with toSearchLog := w.log, frontier := w.frontier } w.budget slice
    else scan oracle path rest (index + 1) extended search budget slice

/-- How one call of `advance` ends: with `true`, with `false`, or with an error. -/
inductive Advance where
  | complete (search : CandidateSearch) (budget : ReplayBudget)
  | paused (search : CandidateSearch) (budget : ReplayBudget)
  | failed (err : OpenMlsProjectionError) (budget : ReplayBudget)

/-- The path `advance` works on next, with its place, and the search without it. -/
def CandidateSearch.take (search : CandidateSearch) :
    Option ((CandidatePathProbe × Nat × Bool) × CandidateSearch) :=
  match search.active with
  | some work => some (work, { search with active := none })
  | none =>
    match search.frontier with
    | [] => none
    | path :: frontier => some ((path, 0, false), { search with frontier := frontier })

/-- One round of the loop of `advance`. -/
def CandidateSearch.advanceRound :
    CandidateSearch × ReplayBudget × ReplaySlice →
      (CandidateSearch × ReplayBudget × ReplaySlice) ⊕ Advance
  | (search, budget, slice) =>
    match search.take with
    | none => .inr (.complete search budget)
    | some ((path, index, extended), search) =>
      match scan oracle path (search.commits.drop index) index extended search budget slice with
      | .failed err budget => .inr (.failed err budget)
      | .paused search budget => .inr (.paused search budget)
      | .finished search extended budget slice =>
        .inl ({ search with toSearchLog := search.toSearchLog.close path extended }, budget, slice)

open CandidateSearch ReplaySlice

/-! ### A scan is a walk with pauses -/

section Scan

variable {oracle : ProbeOracle} {path : CandidatePathProbe}

/-- The walk a scan is on. -/
def CandidateSearch.walk (search : CandidateSearch) (budget : ReplayBudget) (extended : Bool) :
    Walk :=
  ⟨search.toSearchLog, budget, search.frontier, extended⟩

/-- The search with the findings and the frontier of a walk. -/
def CandidateSearch.withWalk (search : CandidateSearch) (w : Walk) : CandidateSearch :=
  { search with toSearchLog := w.log, frontier := w.frontier }

/-- Where a slice stops: `n` probes were started, the first of them always. -/
def ReplaySlice.StopsAt (slice : ReplaySlice) (n : Nat) : Prop :=
  n ≠ 0 ∧ (slice.limit ≤ n ∨ slice.expired n = true)

theorem ReplaySlice.startProbe_eq_none {slice : ReplaySlice} :
    slice.startProbe = none ↔ slice.StopsAt slice.started := by
  rw [startProbe, ReplaySlice.StopsAt]
  split
  · rename_i h
    exact iff_of_true rfl h
  · rename_i h
    exact iff_of_false (by simp) h

theorem ReplaySlice.startProbe_eq_some {slice slice' : ReplaySlice}
    (h : slice.startProbe = some slice') :
    slice'.started = slice.started + 1 ∧ ∀ n, slice'.StopsAt n ↔ slice.StopsAt n := by
  rw [startProbe] at h
  split at h
  · cases h
  · cases h
    exact ⟨rfl, fun n => Iff.rfl⟩

/-- What the walk over the commits ends with, for each end of the scan. -/
def ScanSpec (oracle : ProbeOracle) (path : CandidatePathProbe)
    (commits : List StoredCommitMessage) (index : Nat) (search : CandidateSearch) (w : Walk)
    (slice : ReplaySlice) : Scan → Prop
  | .finished search' extended' budget' slice' =>
    ∃ w', walkCommits oracle search.pendingProposals path commits w = .ok w' ∧
      search' = search.withWalk w' ∧ extended' = w'.extended ∧ budget' = w'.budget ∧
      slice'.started + budget'.remaining.toNat = slice.started + w.budget.remaining.toNat ∧
      ∀ n, slice'.StopsAt n ↔ slice.StopsAt n
  | .failed err budget' =>
    walkCommits oracle search.pendingProposals path commits w = .error (budget', err)
  | .paused search' budget' =>
    -- The walk goes on from the commit the search has kept its place at.
    ∃ w' k n, walkCommits oracle search.pendingProposals path commits w =
        walkCommits oracle search.pendingProposals path (commits.drop k) w' ∧
      search' = { search.withWalk w' with active := some (path, index + k, w'.extended) } ∧
      budget' = w'.budget ∧
      n + budget'.remaining.toNat = slice.started + w.budget.remaining.toNat ∧ slice.StopsAt n

/-- One commit more in front: the walk over it has led to `w₁`. -/
theorem ScanSpec.cons {commit : StoredCommitMessage} {rest : List StoredCommitMessage}
    {index : Nat} {search : CandidateSearch} {w w₁ : Walk} {slice slice₁ : ReplaySlice} {r : Scan}
    (hwalk : walkCommits oracle search.pendingProposals path (commit :: rest) w =
      walkCommits oracle search.pendingProposals path rest w₁)
    (hcount : slice₁.started + w₁.budget.remaining.toNat =
      slice.started + w.budget.remaining.toNat)
    (hstops : ∀ n, slice₁.StopsAt n ↔ slice.StopsAt n)
    (h : ScanSpec oracle path rest (index + 1) (search.withWalk w₁) w₁ slice₁ r) :
    ScanSpec oracle path (commit :: rest) index search w slice r := by
  cases r with
  | finished search' extended' budget' slice' =>
    obtain ⟨w', hw', hsearch, hext, hbudget, hcount', hstops'⟩ := h
    exact ⟨w', hwalk.trans hw', hsearch, hext, hbudget, hcount'.trans hcount,
      fun n => (hstops' n).trans (hstops n)⟩
  | failed err budget' => exact hwalk.trans h
  | paused search' budget' =>
    obtain ⟨w', k, n, hw', hsearch, hbudget, hn, hstop⟩ := h
    refine ⟨w', k + 1, n, hwalk.trans hw', ?_, hbudget, hn.trans hcount, (hstops n).mp hstop⟩
    rw [hsearch, Nat.add_assoc, Nat.add_comm 1 k]
    rfl

theorem scan_spec (oracle : ProbeOracle) (path : CandidatePathProbe)
    (commits : List StoredCommitMessage) (index : Nat) (extended : Bool)
    (search : CandidateSearch) (budget : ReplayBudget) (slice : ReplaySlice) :
    ScanSpec oracle path commits index search (search.walk budget extended) slice
      (scan oracle path commits index extended search budget slice) := by
  induction commits generalizing index extended search budget slice with
  | nil => exact ⟨_, rfl, rfl, rfl, rfl, rfl, fun n => Iff.rfl⟩
  | cons commit rest ih =>
    rw [scan]
    by_cases htries : path.tries commit search.seenPaths = true
    · have hwalk : walkCommits oracle search.pendingProposals path (commit :: rest)
          (search.walk budget extended) =
          match (search.walk budget extended).probe oracle search.pendingProposals path commit with
          | .error e => .error e
          | .ok w' => walkCommits oracle search.pendingProposals path rest w' := by
        rw [walkCommits]
        exact if_pos htries
      rw [if_pos htries]
      cases hstart : slice.startProbe with
      | none =>
        -- Paused here: the walk has all of the commits before it.
        exact ⟨search.walk budget extended, 0, slice.started, rfl, rfl, rfl, rfl,
          startProbe_eq_none.mp hstart⟩
      | some slice₁ =>
        obtain ⟨hstarted, hstops⟩ := startProbe_eq_some hstart
        show ScanSpec _ _ _ _ _ _ _ (match (search.walk budget extended).probe oracle
          search.pendingProposals path commit with
          | .error (budget, err) => Scan.failed err budget
          | .ok w => scan oracle path rest (index + 1) w.extended
              (search.withWalk w) w.budget slice₁)
        cases hprobe : (search.walk budget extended).probe oracle search.pendingProposals path
            commit with
        | error e =>
          rw [hprobe] at hwalk
          exact hwalk
        | ok w₁ =>
          rw [hprobe] at hwalk
          have hbudget := (Walk.probe_ok hprobe).1
          refine ScanSpec.cons hwalk ?_ hstops
            (ih (index + 1) w₁.extended (search.withWalk w₁) w₁.budget slice₁)
          omega
    · rw [if_neg htries]
      have hwalk : walkCommits oracle search.pendingProposals path (commit :: rest)
          (search.walk budget extended) =
          walkCommits oracle search.pendingProposals path rest (search.walk budget extended) := by
        rw [walkCommits]
        exact if_neg htries
      exact ScanSpec.cons hwalk rfl (fun n => Iff.rfl)
        (ih (index + 1) extended search budget slice)

end Scan

/-! ### A small fork

Two commits from epoch 10, and one more that was made on the first of them. -/

def storedCommit (id : String) (sourceEpoch : UInt64) (byte : UInt8) : StoredCommitMessage :=
  ⟨⟨id, [byte], "relay", .groupMessage [0]⟩, sourceEpoch, Vector.replicate 32 byte, .retryable⟩

def forkParent : StoredCommitMessage := storedCommit "parent" 10 1

def forkSibling : StoredCommitMessage := storedCommit "sibling" 10 2

def forkChild : StoredCommitMessage := storedCommit "child" 11 3

def forkOracle : ProbeOracle where
  projectKind _ := .ok .commit
  branchIdForPathDigests digests := "path:" ++ toString digests.length
  prepare _ _ := .ok ()
  replay _ digests :=
    if digests = [forkParent.digest] ∨ digests = [forkSibling.digest] then
      .ok ⟨"path:1", 10, 11, .ordinary, [0], forkParent.digest, [], []⟩
    else if digests = [forkParent.digest, forkChild.digest] then
      .ok ⟨"path:2", 10, 12, .ordinary, [0], forkChild.digest, [], []⟩
    else .error (.replay "the commit was made on another state")

end Mdk
