/-
What a completed search has found.

The paths a set of commits can reach are those that start from the empty path and
are extended, one commit after the other, by commits that MLS replays on them
(`ReachablePath`).  A search that completes has probed every commit on every path it
could extend, and nothing else.

* `walkCommits_eq_probeAll` — a fresh path is probed with its extensions, in order;
* `exploreAll_found` — the findings of a completed search, probe by probe.
-/
import Mdk.SlicedSearch

open Std (ExtTreeMap ExtTreeSet TransCmp)
open Comparison

namespace Mdk

open CandidatePathProbe CandidatePathProbeResult SearchLog List

/-! ### Extensions of a path -/

/-- The first commit of each digest. -/
def firstByDigest : List StoredCommitMessage → List StoredCommitMessage
  | [] => []
  | commit :: rest =>
    commit :: (firstByDigest rest).filter fun other => decide (other.digest ≠ commit.digest)

/-- The commit starts at the path's tip and is not on the path. -/
def CandidatePathProbe.fits (path : CandidatePathProbe) (commit : StoredCommitMessage) : Bool :=
  !(decide (commit.sourceEpoch ≠ path.tipEpoch) || path.digests.contains commit.digest)

/-- The commits that are probed on a path: those that fit, once for each digest. -/
def CandidatePathProbe.extensions (path : CandidatePathProbe)
    (commits : List StoredCommitMessage) : List StoredCommitMessage :=
  firstByDigest (commits.filter path.fits)

theorem firstByDigest_inj {commits : List StoredCommitMessage} {a b : StoredCommitMessage}
    (ha : a ∈ firstByDigest commits) (hb : b ∈ firstByDigest commits)
    (hdigest : a.digest = b.digest) : a = b := by
  induction commits with
  | nil => cases ha
  | cons c rest ih =>
    rw [firstByDigest] at ha hb
    rcases mem_cons.mp ha with rfl | ha
    · rcases mem_cons.mp hb with rfl | hb
      · rfl
      · have hne := of_decide_eq_true (mem_filter.mp hb).2
        exact absurd hdigest.symm hne
    · rcases mem_cons.mp hb with rfl | hb
      · have hne := of_decide_eq_true (mem_filter.mp ha).2
        exact absurd hdigest hne
      · exact ih (mem_of_mem_filter ha) (mem_of_mem_filter hb)

theorem firstByDigest_nodup (commits : List StoredCommitMessage) :
    ((firstByDigest commits).map StoredCommitMessage.digest).Nodup := by
  induction commits with
  | nil => exact nodup_nil
  | cons c rest ih =>
    rw [firstByDigest, map_cons, nodup_cons]
    constructor
    · intro h
      obtain ⟨d, hd, hdigest⟩ := mem_map.mp h
      exact of_decide_eq_true (mem_filter.mp hd).2 hdigest
    · exact ih.sublist (List.Sublist.map _ filter_sublist)

/-- Probe the commits one after the other. -/
def probeAll (oracle : ProbeOracle) (pendingProposals : List TransportMessage)
    (path : CandidatePathProbe) :
    List StoredCommitMessage → Walk → Except (ReplayBudget × OpenMlsProjectionError) Walk
  | [], w => .ok w
  | commit :: rest, w =>
    match w.probe oracle pendingProposals path commit with
    | .error e => .error e
    | .ok w' => probeAll oracle pendingProposals path rest w'

section Walk

variable {oracle : ProbeOracle} {pendingProposals : List TransportMessage}
  {path : CandidatePathProbe}

/-- What the oracle says about `commit` on `path`. -/
def verdict (oracle : ProbeOracle) (pendingProposals : List TransportMessage)
    (path : CandidatePathProbe) (commit : StoredCommitMessage) :
    Except OpenMlsProjectionError CandidatePathProbeResult :=
  CandidatePathProbeResult.ofReplay
    (oracle.replay pendingProposals (path.digests ++ [commit.digest]))

/-- A probe that does not fail notes the verdict and adds the path it gives. -/
theorem Walk.probe_eq {commit : StoredCommitMessage} {w w' : Walk}
    (h : w.probe oracle pendingProposals path commit = .ok w') :
    ∃ result, verdict oracle pendingProposals path commit = .ok result ∧
      w'.log = ((w.log.markSeen (path.digests ++ [commit.digest])).record commit result).1 ∧
      w'.frontier = w.frontier ++
        (((w.log.markSeen (path.digests ++ [commit.digest])).record commit result).2.map
          (path.child commit)).toList ∧
      w'.extended = (w.extended ||
        ((w.log.markSeen (path.digests ++ [commit.digest])).record commit result).2.isSome) := by
  rcases hprobe : probeCandidatePath oracle pendingProposals (path.digests ++ [commit.digest])
    w.budget with ⟨budget, err | result⟩
  · simp only [Walk.probe, hprobe] at h
    cases h
  · have hverdict : verdict oracle pendingProposals path commit = .ok result := by
      rw [probeCandidatePath] at hprobe
      split at hprobe
      · cases hprobe
      · split at hprobe
        · cases hprobe
        · exact congrArg Prod.snd hprobe
    refine ⟨result, hverdict, ?_⟩
    rcases hrecord : (w.log.markSeen (path.digests ++ [commit.digest])).record commit result with
      ⟨log, _ | candidate⟩
    · simp only [Walk.probe, hprobe, hrecord] at h
      cases h
      exact ⟨rfl, by simp, by simp⟩
    · simp only [Walk.probe, hprobe, hrecord] at h
      cases h
      exact ⟨rfl, by simp, by simp⟩

theorem SearchLog.record_seenPaths (log : SearchLog) (commit : StoredCommitMessage)
    (result : CandidatePathProbeResult) :
    (log.record commit result).1.seenPaths = log.seenPaths := by
  rcases result with ⟨_ | candidate⟩ | _ | _ | _ <;> rfl

theorem Walk.probe_seenPaths {commit : StoredCommitMessage} {w w' : Walk}
    (h : w.probe oracle pendingProposals path commit = .ok w') (digests : List Digest) :
    digests ∈ w'.log.seenPaths ↔
      path.digests ++ [commit.digest] = digests ∨ digests ∈ w.log.seenPaths := by
  obtain ⟨result, -, hlog, -⟩ := Walk.probe_eq h
  rw [hlog, record_seenPaths, markSeen, ExtTreeSet.mem_insert,
    Std.compare_eq_iff_eq]

/-- The extensions of a path that have not been probed yet. -/
def CandidatePathProbe.unprobed (path : CandidatePathProbe) (log : SearchLog)
    (commits : List StoredCommitMessage) : List StoredCommitMessage :=
  (path.extensions commits).filter fun commit =>
    !log.seenPaths.contains (path.digests ++ [commit.digest])

theorem walkCommits_eq_probeAll_unprobed (commits : List StoredCommitMessage) (w : Walk) :
    walkCommits oracle pendingProposals path commits w =
      probeAll oracle pendingProposals path (path.unprobed w.log commits) w := by
  induction commits generalizing w with
  | nil => rfl
  | cons commit rest ih =>
    have htries : path.tries commit w.log.seenPaths =
        (path.fits commit && !w.log.seenPaths.contains (path.digests ++ [commit.digest])) := rfl
    rw [walkCommits, htries]
    by_cases hfits : path.fits commit = true
    · have hext : path.extensions (commit :: rest) = commit :: (path.extensions rest).filter
          fun other => decide (other.digest ≠ commit.digest) := by
        rw [extensions, filter_cons_of_pos hfits, firstByDigest]
        rfl
      rw [hfits, Bool.true_and]
      by_cases hseen : w.log.seenPaths.contains (path.digests ++ [commit.digest]) = true
      · -- Already probed: later commits of the same digest are skipped as well.
        rw [hseen, if_neg (by simp), ih]
        congr 1
        rw [unprobed, unprobed, hext,
          filter_cons_of_neg (by simp [hseen]), filter_filter]
        refine filter_congr fun other _ => ?_
        by_cases hdigest : other.digest = commit.digest
        · simp [hdigest, hseen]
        · simp [hdigest]
      · -- Probed now: its sequence joins the seen ones, which is what leaves the later
        -- commits of the same digest out.
        rw [Bool.not_eq_true] at hseen
        rw [hseen, if_pos (by simp), unprobed, hext,
          filter_cons_of_pos (by simp [hseen]), probeAll]
        cases hprobe : w.probe oracle pendingProposals path commit with
        | error e => rfl
        | ok w₁ =>
          show walkCommits oracle pendingProposals path rest w₁ = _
          rw [ih]
          congr 1
          rw [unprobed, filter_filter]
          refine filter_congr fun other _ => ?_
          have hmem := Walk.probe_seenPaths hprobe (path.digests ++ [other.digest])
          rw [append_cancel_left_eq, List.cons.injEq, and_iff_left rfl] at hmem
          rw [Bool.eq_iff_iff]
          simp only [ne_eq, decide_not, Bool.and_eq_true, Bool.not_eq_true', ← Bool.not_eq_true,
            ← ExtTreeSet.mem_iff_contains, hmem, not_or]
          rw [decide_eq_true_eq, and_comm, @eq_comm _ other.digest]
    · rw [Bool.not_eq_true] at hfits
      rw [hfits, Bool.false_and, if_neg Bool.false_ne_true, ih]
      congr 1
      rw [unprobed, unprobed, extensions,
        extensions, filter_cons_of_neg (by simp [hfits])]

/-- A path none of whose extensions has been probed is probed with all of them. -/
theorem walkCommits_eq_probeAll {commits : List StoredCommitMessage} {w : Walk}
    (hfresh : ∀ digest, path.digests ++ [digest] ∉ w.log.seenPaths) :
    walkCommits oracle pendingProposals path commits w =
      probeAll oracle pendingProposals path (path.extensions commits) w := by
  rw [walkCommits_eq_probeAll_unprobed, unprobed, filter_eq_self.mpr]
  intro commit _
  rw [Bool.not_eq_true', ← Bool.not_eq_true, ← ExtTreeSet.mem_iff_contains]
  exact hfresh commit.digest

end Walk

/-! ### Reachable paths and what is found on them -/

section Reachable

variable (oracle : ProbeOracle) (pendingProposals : List TransportMessage)
  (commits : List StoredCommitMessage)

/-- The paths that MLS can replay, commit by commit. -/
inductive ReachablePath (startingEpoch : UInt64) : CandidatePathProbe → Prop
  | root : ReachablePath startingEpoch (CandidatePathProbe.root startingEpoch)
  | child {path : CandidatePathProbe} {commit : StoredCommitMessage}
      {candidate : OpenMlsMaterializedCandidate} (hpath : ReachablePath startingEpoch path)
      (hcommit : commit ∈ path.extensions commits)
      (hreplay : oracle.replay pendingProposals (path.digests ++ [commit.digest]) =
        .ok candidate) :
      ReachablePath startingEpoch (path.child commit candidate)

/-- `commit` is probed on `path` and the verdict is `result`. -/
structure Probed (startingEpoch : UInt64) (path : CandidatePathProbe)
    (commit : StoredCommitMessage) (result : CandidatePathProbeResult) : Prop where
  reachable : ReachablePath oracle pendingProposals commits startingEpoch path
  extension : commit ∈ path.extensions commits
  verdict : verdict oracle pendingProposals path commit = .ok result

/-- The drops a verdict is reported with. -/
def CandidatePathProbeResult.drops (commit : StoredCommitMessage) :
    CandidatePathProbeResult → List DroppedMessage
  | .materialized _ => []
  | .rejectedProposal messageId category =>
    [⟨messageId, .proposal, .invalidAgainstCandidateState, some category⟩,
      invalidCommitDrop commit.message.id none]
  | .unauthorizedCommit messageId => [invalidCommitDrop messageId none]
  | .invalidCommit messageId rejectionCategory => [invalidCommitDrop messageId rejectionCategory]

/-- The log has what the probe of `commit` with verdict `result` has to leave in it. -/
structure SearchLog.Has (log : SearchLog) (commit : StoredCommitMessage)
    (result : CandidatePathProbeResult) : Prop where
  materialized : ∀ candidate, result = .materialized (some candidate) →
    commit.message.id ∈ log.materializedCommitIds
  rejected : result = .materialized none → commit.message.id ∈ log.replayRejectedCommitIds
  drops : ∀ drop ∈ result.drops commit, drop ∈ log.invalidCommitDrops

/-- Everything in the log comes from a probe. -/
structure SearchLog.Sound (startingEpoch : UInt64) (log : SearchLog) : Prop where
  materialized : ∀ id ∈ log.materializedCommitIds, ∃ path commit candidate,
    Probed oracle pendingProposals commits startingEpoch path commit
      (.materialized (some candidate)) ∧ commit.message.id = id
  rejected : ∀ id ∈ log.replayRejectedCommitIds, ∃ path commit,
    Probed oracle pendingProposals commits startingEpoch path commit (.materialized none) ∧
      commit.message.id = id
  drops : ∀ drop ∈ log.invalidCommitDrops, ∃ path commit result,
    Probed oracle pendingProposals commits startingEpoch path commit result ∧
      drop ∈ result.drops commit

/-- `b` has everything `a` has. -/
structure SearchLog.Le (a b : SearchLog) : Prop where
  materialized : ∀ id ∈ a.materializedCommitIds, id ∈ b.materializedCommitIds
  rejected : ∀ id ∈ a.replayRejectedCommitIds, id ∈ b.replayRejectedCommitIds
  drops : ∀ drop ∈ a.invalidCommitDrops, drop ∈ b.invalidCommitDrops
  seen : ∀ digests ∈ a.seenPaths, digests ∈ b.seenPaths

variable {oracle pendingProposals commits} {startingEpoch : UInt64} (log : SearchLog)

theorem SearchLog.Le.refl : log.Le log :=
  ⟨fun _ h => h, fun _ h => h, fun _ h => h, fun _ h => h⟩

theorem SearchLog.Le.trans {a b c : SearchLog} (hab : a.Le b) (hbc : b.Le c) : a.Le c :=
  ⟨fun id h => hbc.materialized id (hab.materialized id h),
    fun id h => hbc.rejected id (hab.rejected id h),
    fun drop h => hbc.drops drop (hab.drops drop h),
    fun digests h => hbc.seen digests (hab.seen digests h)⟩

theorem SearchLog.Has.mono {a b : SearchLog} {commit : StoredCommitMessage}
    {result : CandidatePathProbeResult} (h : a.Has commit result) (hab : a.Le b) :
    b.Has commit result :=
  ⟨fun candidate hr => hab.materialized _ (h.materialized candidate hr),
    fun hr => hab.rejected _ (h.rejected hr), fun drop hd => hab.drops drop (h.drops drop hd)⟩

variable {result : CandidatePathProbeResult} {commit : StoredCommitMessage}

/-- What noting a verdict does to the log. -/
theorem SearchLog.record_spec :
    let log' := (log.record commit result).1
    (∀ id, id ∈ log'.materializedCommitIds ↔
      id ∈ log.materializedCommitIds ∨
        ∃ candidate, result = .materialized (some candidate) ∧ commit.message.id = id) ∧
    (∀ id, id ∈ log'.replayRejectedCommitIds ↔
      id ∈ log.replayRejectedCommitIds ∨ result = .materialized none ∧ commit.message.id = id) ∧
    log'.invalidCommitDrops = log.invalidCommitDrops ++ result.drops commit := by
  rcases result with ⟨_ | candidate⟩ | _ | _ | _ <;>
    simp [record, drops, ExtTreeSet.mem_insert, or_comm]

theorem SearchLog.record_candidate (candidate : OpenMlsMaterializedCandidate) :
    (log.record commit result).2 = some candidate ↔ result = .materialized (some candidate) := by
  rcases result with ⟨_ | candidate⟩ | _ | _ | _ <;> simp [record]

theorem verdict_eq_materialized {path : CandidatePathProbe} {commit : StoredCommitMessage}
    {candidate : OpenMlsMaterializedCandidate} :
    verdict oracle pendingProposals path commit = .ok (.materialized (some candidate)) ↔
      oracle.replay pendingProposals (path.digests ++ [commit.digest]) = .ok candidate := by
  rw [verdict]
  cases hreplay : oracle.replay pendingProposals (path.digests ++ [commit.digest]) with
  | ok c => simp [ofReplay]
  | error e => cases e <;> simp [ofReplay]

/-! ### Probing one path -/

/-- The path that `commit` leads to from `path`, if there is one. -/
def CandidatePathProbe.children (oracle : ProbeOracle) (pendingProposals : List TransportMessage)
    (path : CandidatePathProbe) (commit : StoredCommitMessage) : List CandidatePathProbe :=
  match oracle.replay pendingProposals (path.digests ++ [commit.digest]) with
  | .ok candidate => [path.child commit candidate]
  | .error _ => []

theorem mem_children {path child : CandidatePathProbe} {commit : StoredCommitMessage} :
    child ∈ path.children oracle pendingProposals commit ↔
      ∃ candidate, oracle.replay pendingProposals (path.digests ++ [commit.digest]) =
        .ok candidate ∧ child = path.child commit candidate := by
  rw [children]
  cases oracle.replay pendingProposals (path.digests ++ [commit.digest]) <;> simp

/-- After the probes of `probed`, a walk that started as `w₀`. -/
structure ProbeInv (oracle : ProbeOracle) (pendingProposals : List TransportMessage)
    (commits : List StoredCommitMessage) (startingEpoch : UInt64) (path : CandidatePathProbe)
    (w₀ : Walk) (probed : List StoredCommitMessage) (w : Walk) : Prop where
  le : w₀.log.Le w.log
  sound : w.log.Sound oracle pendingProposals commits startingEpoch
  seen : ∀ digests, digests ∈ w.log.seenPaths ↔
    digests ∈ w₀.log.seenPaths ∨ ∃ commit ∈ probed, path.digests ++ [commit.digest] = digests
  tried : ∀ commit ∈ probed, ∃ result,
    verdict oracle pendingProposals path commit = .ok result ∧ w.log.Has commit result
  frontier : w.frontier = w₀.frontier ++
    probed.flatMap (path.children oracle pendingProposals)

section Step

variable {path : CandidatePathProbe} {w₀ w w' : Walk} {probed : List StoredCommitMessage}
  {commit : StoredCommitMessage} {result : CandidatePathProbeResult}

theorem SearchLog.record_le (log : SearchLog) (digests : List Digest) :
    log.Le ((log.markSeen digests).record commit result).1 := by
  obtain ⟨hmaterialized, hrejected, hdrops⟩ := (log.markSeen digests).record_spec
  refine ⟨fun id h => (hmaterialized id).mpr (Or.inl h), fun id h => (hrejected id).mpr (Or.inl h),
    fun drop h => ?_, fun ds h => ?_⟩
  · rw [hdrops]
    exact mem_append_left _ h
  · rw [record_seenPaths, markSeen, ExtTreeSet.mem_insert]
    exact Or.inr h

theorem SearchLog.record_has (log : SearchLog) :
    (log.record commit result).1.Has commit result := by
  obtain ⟨hmaterialized, hrejected, hdrops⟩ := log.record_spec
  refine ⟨fun candidate h => (hmaterialized _).mpr (Or.inr ⟨candidate, h, rfl⟩),
    fun h => (hrejected _).mpr (Or.inr ⟨h, rfl⟩), fun drop h => ?_⟩
  rw [hdrops]
  exact mem_append_right _ h

theorem SearchLog.Sound.record {log : SearchLog}
    (h : log.Sound oracle pendingProposals commits startingEpoch) (digests : List Digest)
    {result : CandidatePathProbeResult}
    (hprobed : Probed oracle pendingProposals commits startingEpoch path commit result) :
    SearchLog.Sound oracle pendingProposals commits startingEpoch
      ((log.markSeen digests).record commit result).1 := by
  obtain ⟨hmaterialized, hrejected, hdrops⟩ := (log.markSeen digests).record_spec
  constructor
  · intro id hid
    rcases (hmaterialized id).mp hid with hid | ⟨candidate, rfl, rfl⟩
    · exact h.materialized id hid
    · exact ⟨path, commit, candidate, hprobed, rfl⟩
  · intro id hid
    rcases (hrejected id).mp hid with hid | ⟨rfl, rfl⟩
    · exact h.rejected id hid
    · exact ⟨path, commit, hprobed, rfl⟩
  · intro drop hdrop
    rw [hdrops] at hdrop
    rcases mem_append.mp hdrop with hdrop | hdrop
    · exact h.drops drop hdrop
    · exact ⟨path, commit, result, hprobed, hdrop⟩

/-- One probe more. -/
theorem ProbeInv.probe
    (h : ProbeInv oracle pendingProposals commits startingEpoch path w₀ probed w)
    (hpath : ReachablePath oracle pendingProposals commits startingEpoch path)
    (hcommit : commit ∈ path.extensions commits)
    (hprobe : w.probe oracle pendingProposals path commit = .ok w') :
    ProbeInv oracle pendingProposals commits startingEpoch path w₀ (probed ++ [commit]) w' := by
  obtain ⟨result, hverdict, hlog, hfrontier, -⟩ := Walk.probe_eq hprobe
  have hle : w.log.Le w'.log := by
    rw [hlog]
    exact record_le _ _
  have hhas : w'.log.Has commit result := by
    rw [hlog]
    exact record_has _
  constructor
  · exact h.le.trans hle
  · rw [hlog]
    exact h.sound.record _ ⟨hpath, hcommit, hverdict⟩
  · intro digests
    rw [Walk.probe_seenPaths hprobe, h.seen]
    simp only [mem_append, mem_singleton]
    constructor
    · rintro (heq | hold | ⟨c, hc, heq⟩)
      · exact Or.inr ⟨commit, Or.inr rfl, heq⟩
      · exact Or.inl hold
      · exact Or.inr ⟨c, Or.inl hc, heq⟩
    · rintro (hold | ⟨c, hc | rfl, heq⟩)
      · exact Or.inr (Or.inl hold)
      · exact Or.inr (Or.inr ⟨c, hc, heq⟩)
      · exact Or.inl heq
  · intro c hc
    rcases mem_append.mp hc with hc | hc
    · obtain ⟨r, hr, hr'⟩ := h.tried c hc
      exact ⟨r, hr, hr'.mono hle⟩
    · rw [mem_singleton.mp hc]
      exact ⟨result, hverdict, hhas⟩
  · rw [hfrontier, h.frontier, flatMap_append, append_assoc]
    congr 2
    rw [flatMap_singleton, children]
    -- A path is added exactly when the oracle replays it.
    cases hreplay : oracle.replay pendingProposals (path.digests ++ [commit.digest]) with
    | ok candidate =>
      rw [verdict_eq_materialized.mpr hreplay] at hverdict
      obtain rfl := Except.ok.inj hverdict
      rfl
    | error e =>
      cases hrecord : ((w.log.markSeen (path.digests ++ [commit.digest])).record commit
          result).2 with
      | none => rfl
      | some candidate =>
        rw [record_candidate] at hrecord
        rw [hrecord, verdict_eq_materialized, hreplay] at hverdict
        cases hverdict

theorem probeAll_inv {rest : List StoredCommitMessage}
    (h : ProbeInv oracle pendingProposals commits startingEpoch path w₀ probed w)
    (hpath : ReachablePath oracle pendingProposals commits startingEpoch path)
    (hrest : ∀ commit ∈ rest, commit ∈ path.extensions commits)
    (hall : probeAll oracle pendingProposals path rest w = .ok w') :
    ProbeInv oracle pendingProposals commits startingEpoch path w₀ (probed ++ rest) w' := by
  induction rest generalizing probed w with
  | nil =>
    cases hall
    rwa [append_nil]
  | cons commit rest ih =>
    rw [probeAll] at hall
    cases hprobe : w.probe oracle pendingProposals path commit with
    | error e =>
      rw [hprobe] at hall
      cases hall
    | ok w₁ =>
      rw [hprobe] at hall
      have hnext := h.probe hpath (hrest commit mem_cons_self) hprobe
      have hdone := ih hnext (fun c hc => hrest c (mem_cons_of_mem _ hc)) hall
      rwa [append_assoc, singleton_append] at hdone

end Step

/-! ### The whole search -/

/-- A reachable path is known by its digests. -/
theorem ReachablePath.eq_of_digests {p q : CandidatePathProbe}
    (hp : ReachablePath oracle pendingProposals commits startingEpoch p)
    (hq : ReachablePath oracle pendingProposals commits startingEpoch q)
    (h : p.digests = q.digests) : p = q := by
  induction hp generalizing q with
  | root =>
    cases hq with
    | root => rfl
    | child hpath hcommit hreplay => simp [CandidatePathProbe.child, CandidatePathProbe.root] at h
  | @child p c candidate hp hc hreplay ih =>
    cases hq with
    | root => simp [CandidatePathProbe.child, CandidatePathProbe.root] at h
    | @child q d candidate' hq hd hreplay' =>
      obtain ⟨hdigests, hdigest⟩ := append_inj' h rfl
      obtain rfl := ih hq hdigests
      obtain rfl := firstByDigest_inj hc hd (singleton_inj.mp hdigest)
      rw [hreplay] at hreplay'
      cases hreplay'
      rfl

/-- `commit` has been probed on `path`, and the log has what came of it. -/
def SearchLog.Tried (oracle : ProbeOracle) (pendingProposals : List TransportMessage)
    (log : SearchLog) (path : CandidatePathProbe) (commit : StoredCommitMessage) : Prop :=
  path.digests ++ [commit.digest] ∈ log.seenPaths ∧
    ∃ result, verdict oracle pendingProposals path commit = .ok result ∧ log.Has commit result

/-- Between two paths: those that wait are reachable and untouched, and every other
path that was seen has been tried with all its extensions. -/
structure SearchInv (oracle : ProbeOracle) (pendingProposals : List TransportMessage)
    (commits : List StoredCommitMessage) (startingEpoch : UInt64)
    (queue : List CandidatePathProbe) (log : SearchLog) : Prop where
  sound : log.Sound oracle pendingProposals commits startingEpoch
  reachable : ∀ path ∈ queue, ReachablePath oracle pendingProposals commits startingEpoch path
  waiting : ∀ path ∈ queue, path.digests ∈ log.seenPaths
  fresh : ∀ path ∈ queue, ∀ digest, path.digests ++ [digest] ∉ log.seenPaths
  distinct : (queue.map CandidatePathProbe.digests).Nodup
  root : [] ∈ log.seenPaths
  closed : ∀ digests digest, digests ++ [digest] ∈ log.seenPaths → digests ∈ log.seenPaths
  explored : ∀ path, ReachablePath oracle pendingProposals commits startingEpoch path →
    path.digests ∈ log.seenPaths → path ∈ queue ∨
      ∀ commit ∈ path.extensions commits, log.Tried oracle pendingProposals path commit

variable {path : CandidatePathProbe} {extended : Bool}

theorem SearchLog.close_fields :
    (log.close path extended).seenPaths = log.seenPaths ∧
      (log.close path extended).materializedCommitIds = log.materializedCommitIds ∧
      (log.close path extended).replayRejectedCommitIds = log.replayRejectedCommitIds ∧
      (log.close path extended).invalidCommitDrops = log.invalidCommitDrops := by
  rw [close]
  split
  · exact ⟨rfl, rfl, rfl, rfl⟩
  · exact ⟨rfl, rfl, rfl, rfl⟩

theorem SearchLog.le_close : log.Le (log.close path extended) := by
  obtain ⟨hseen, hmaterialized, hrejected, hdrops⟩ := log.close_fields
  constructor
  · rw [hmaterialized]
    exact fun _ h => h
  · rw [hrejected]
    exact fun _ h => h
  · rw [hdrops]
    exact fun _ h => h
  · rw [hseen]
    exact fun _ h => h

/-- Closing a path does not touch what the invariant is about. -/
theorem SearchInv.close {queue : List CandidatePathProbe} {log : SearchLog}
    (h : SearchInv oracle pendingProposals commits startingEpoch queue log) :
    SearchInv oracle pendingProposals commits startingEpoch queue (log.close path extended) := by
  obtain ⟨hseen, hmaterialized, hrejected, hdrops⟩ := log.close_fields
  constructor
  · refine ⟨?_, ?_, ?_⟩
    · rw [hmaterialized]
      exact h.sound.materialized
    · rw [hrejected]
      exact h.sound.rejected
    · rw [hdrops]
      exact h.sound.drops
  · exact h.reachable
  · rw [hseen]
    exact h.waiting
  · rw [hseen]
    exact h.fresh
  · exact h.distinct
  · rw [hseen]
    exact h.root
  · rw [hseen]
    exact h.closed
  · intro p hp hpseen
    rw [hseen] at hpseen
    refine (h.explored p hp hpseen).imp_right fun htried commit hcommit => ?_
    obtain ⟨hdigests, result, hverdict, hresult⟩ := htried commit hcommit
    exact ⟨by rwa [hseen], result, hverdict, hresult.mono log.le_close⟩

section Expand

variable {path : CandidatePathProbe} {queue : List CandidatePathProbe} {w₀ w : Walk}

/-- The paths a walk adds are the children of its path. -/
theorem ProbeInv.mem_frontier
    (h : ProbeInv oracle pendingProposals commits startingEpoch path w₀
      (path.extensions commits) w)
    (hempty : w₀.frontier = []) {child : CandidatePathProbe} :
    child ∈ w.frontier ↔ ∃ commit ∈ path.extensions commits, ∃ candidate,
      oracle.replay pendingProposals (path.digests ++ [commit.digest]) = .ok candidate ∧
        child = path.child commit candidate := by
  rw [h.frontier, hempty, nil_append, mem_flatMap]
  simp only [mem_children]

/-- A commit gives one path at most, and its digests are the path's and its own. -/
theorem children_digests_sublist (probed : List StoredCommitMessage) :
    ((probed.flatMap (path.children oracle pendingProposals)).map
      digests).Sublist (probed.map fun c => path.digests ++ [c.digest]) := by
  induction probed with
  | nil => exact List.Sublist.refl _
  | cons c probed ih =>
    rw [flatMap_cons, map_append, map_cons, children]
    cases oracle.replay pendingProposals (path.digests ++ [c.digest]) with
    | ok candidate => exact List.Sublist.cons_cons _ ih
    | error e => exact List.Sublist.cons _ ih

theorem ProbeInv.frontier_nodup
    (h : ProbeInv oracle pendingProposals commits startingEpoch path w₀
      (path.extensions commits) w)
    (hempty : w₀.frontier = []) : (w.frontier.map digests).Nodup := by
  rw [h.frontier, hempty, nil_append]
  have hnodup := firstByDigest_nodup (commits.filter path.fits)
  rw [← extensions] at hnodup
  -- The extensions have distinct digests, and so have the sequences they extend to.
  refine List.Nodup.sublist (children_digests_sublist _) ?_
  have hmap : (path.extensions commits).map (fun c => path.digests ++ [c.digest]) =
      ((path.extensions commits).map StoredCommitMessage.digest).map
        fun digest => path.digests ++ [digest] := by
    rw [map_map]
    rfl
  rw [hmap]
  refine hnodup.map fun a b hab => ?_
  simpa using hab

/-- **One path of the worklist**: the invariant moves on to the paths that are left
and those that were added. -/
theorem SearchInv.expand {log : SearchLog}
    (h : SearchInv oracle pendingProposals commits startingEpoch (path :: queue) log)
    (hw : ProbeInv oracle pendingProposals commits startingEpoch path w₀
      (path.extensions commits) w)
    (hempty : w₀.frontier = []) (hlog : w₀.log = log) :
    SearchInv oracle pendingProposals commits startingEpoch (queue ++ w.frontier) w.log := by
  have hpath := h.reachable path mem_cons_self
  have hseen := hw.seen
  have hle := hw.le
  rw [hlog] at hseen hle
  have hdistinct := h.distinct
  rw [map_cons, nodup_cons] at hdistinct
  -- A sequence seen anew extends the path, so it is not one of the paths that wait.
  have hchild : ∀ child ∈ w.frontier, child.digests ∈ w.log.seenPaths ∧
      child.digests ∉ log.seenPaths ∧
      ReachablePath oracle pendingProposals commits startingEpoch child := by
    intro child hc
    obtain ⟨commit, hcommit, candidate, hreplay, rfl⟩ := (hw.mem_frontier hempty).mp hc
    exact ⟨(hseen _).mpr (Or.inr ⟨commit, hcommit, rfl⟩),
      h.fresh path mem_cons_self commit.digest, ReachablePath.child hpath hcommit hreplay⟩
  constructor
  · exact hw.sound
  · intro p hp
    rcases mem_append.mp hp with hp | hp
    · exact h.reachable p (mem_cons_of_mem _ hp)
    · exact (hchild p hp).2.2
  · intro p hp
    rcases mem_append.mp hp with hp | hp
    · exact hle.seen _ (h.waiting p (mem_cons_of_mem _ hp))
    · exact (hchild p hp).1
  · intro p hp digest hmem
    rcases mem_append.mp hp with hp | hp
    · rcases (hseen _).mp hmem with hold | ⟨commit, -, heq⟩
      · exact h.fresh p (mem_cons_of_mem _ hp) digest hold
      · obtain ⟨hdigests, -⟩ := append_inj' heq rfl
        exact hdistinct.1 (mem_map.mpr ⟨p, hp, hdigests.symm⟩)
    · rcases (hseen _).mp hmem with hold | ⟨commit, -, heq⟩
      · exact (hchild p hp).2.1 (h.closed _ _ hold)
      · obtain ⟨hdigests, -⟩ := append_inj' heq rfl
        refine (hchild p hp).2.1 ?_
        rw [← hdigests]
        exact h.waiting path mem_cons_self
  · rw [map_append]
    refine nodup_append.mpr ⟨hdistinct.2, hw.frontier_nodup hempty, ?_⟩
    intro digests hd digests' hd' heq
    obtain ⟨p, hp, rfl⟩ := mem_map.mp hd
    obtain ⟨child, hc, rfl⟩ := mem_map.mp hd'
    refine (hchild child hc).2.1 ?_
    rw [← heq]
    exact h.waiting p (mem_cons_of_mem _ hp)
  · exact hle.seen _ h.root
  · intro digests digest hmem
    rcases (hseen _).mp hmem with hold | ⟨commit, -, heq⟩
    · exact hle.seen _ (h.closed _ _ hold)
    · obtain ⟨hdigests, -⟩ := append_inj' heq rfl
      rw [← hdigests]
      exact hle.seen _ (h.waiting path mem_cons_self)
  · intro p hp hmem
    rcases (hseen _).mp hmem with hold | ⟨commit, hcommit, heq⟩
    · rcases h.explored p hp hold with hqueue | htried
      · rcases mem_cons.mp hqueue with rfl | hqueue
        · -- The path itself: its extensions have just been probed.
          refine Or.inr fun commit hcommit => ?_
          exact ⟨(hseen _).mpr (Or.inr ⟨commit, hcommit, rfl⟩), hw.tried commit hcommit⟩
        · exact Or.inl (mem_append_left _ hqueue)
      · refine Or.inr fun commit hcommit => ?_
        obtain ⟨hdigests, result, hverdict, hhas⟩ := htried commit hcommit
        exact ⟨hle.seen _ hdigests, result, hverdict, hhas.mono hle⟩
    · -- A child of the path, so it has been added.
      refine Or.inl (mem_append_right _ ((hw.mem_frontier hempty).mpr ?_))
      cases hp with
      | root => simp [CandidatePathProbe.root] at heq
      | @child q c candidate hq hc hreplay =>
        obtain ⟨hdigests, hdigest⟩ := append_inj' heq rfl
        obtain rfl := hpath.eq_of_digests hq hdigests
        exact ⟨c, hc, candidate, hreplay, rfl⟩

end Expand

theorem searchInv_root :
    SearchInv oracle pendingProposals commits startingEpoch
      [root startingEpoch] {} := by
  have hseen : ∀ digests, digests ∈ ({} : SearchLog).seenPaths ↔ digests = [] := by
    intro digests
    show digests ∈ (insert [] ∅ : ExtTreeSet (List Digest)) ↔ digests = []
    rw [ExtTreeSet.insert_eq_insert, ExtTreeSet.mem_insert, Std.compare_eq_iff_eq, eq_comm]
    simp
  constructor
  · refine ⟨?_, ?_, ?_⟩ <;> intro x hx <;> simp at hx
  · intro p hp
    rw [mem_singleton.mp hp]
    exact ReachablePath.root
  · intro p hp
    rw [mem_singleton.mp hp, hseen]
    rfl
  · intro p hp digest hmem
    rw [hseen] at hmem
    simp at hmem
  · simp
  · rw [hseen]
  · intro digests digest hmem
    rw [hseen] at hmem
    simp at hmem
  · intro p hp hmem
    rw [hseen] at hmem
    exact Or.inl (mem_singleton.mpr (hp.eq_of_digests ReachablePath.root hmem))

/-- **A search that comes to its end has found what there is to find**: its log comes
from probes of commits on reachable paths, and has every one of them. -/
theorem exploreAll_found {budget budget' : ReplayBudget} {log : SearchLog}
    (h : exploreAll oracle pendingProposals commits [CandidatePathProbe.root startingEpoch]
      ({}, budget) = .ok (log, budget')) :
    log.Sound oracle pendingProposals commits startingEpoch ∧
      ∀ path commit, ReachablePath oracle pendingProposals commits startingEpoch path →
        commit ∈ path.extensions commits → ∃ result,
          verdict oracle pendingProposals path commit = .ok result ∧ log.Has commit result := by
  have hinv : SearchInv oracle pendingProposals commits startingEpoch [] log := by
    refine Worklist.fifo_invariant (I := fun queue t =>
      SearchInv oracle pendingProposals commits startingEpoch queue t.1) _ ?_ searchInv_root h
    intro path queue t t' out hI hexpand
    rw [expandPath] at hexpand
    cases hwalk : walkCommits oracle pendingProposals path commits ⟨t.1, t.2, [], false⟩ with
    | error e =>
      rw [hwalk] at hexpand
      cases hexpand
    | ok w =>
      rw [hwalk] at hexpand
      cases hexpand
      rw [walkCommits_eq_probeAll (hI.fresh path mem_cons_self)] at hwalk
      have hstart : ProbeInv oracle pendingProposals commits startingEpoch path
          ⟨t.1, t.2, [], false⟩ [] ⟨t.1, t.2, [], false⟩ :=
        ⟨SearchLog.Le.refl _, hI.sound, by simp, by simp, rfl⟩
      have hdone := probeAll_inv hstart (hI.reachable path mem_cons_self)
        (fun _ hc => hc) hwalk
      rw [nil_append] at hdone
      exact (hI.expand hdone rfl rfl).close
  have htried : ∀ path, ReachablePath oracle pendingProposals commits startingEpoch path →
      path.digests ∈ log.seenPaths →
      ∀ commit ∈ path.extensions commits, log.Tried oracle pendingProposals path commit := by
    intro path hpath hseen
    rcases hinv.explored path hpath hseen with hqueue | htried
    · cases hqueue
    · exact htried
  -- Along a reachable path: each of its starts is seen, so its next commit was tried.
  have hall : ∀ path, ReachablePath oracle pendingProposals commits startingEpoch path →
      path.digests ∈ log.seenPaths := by
    intro path hpath
    induction hpath with
    | root => exact hinv.root
    | child hpath hcommit _ ih => exact (htried _ hpath ih _ hcommit).1
  refine ⟨hinv.sound, fun path commit hpath hcommit => ?_⟩
  exact (htried path hpath (hall path hpath) commit hcommit).2

end Reachable

end Mdk
