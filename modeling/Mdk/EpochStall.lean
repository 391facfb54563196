/-
The detector of stalled epochs, `crates/marmot-app/src/client/epoch_stall.rs`.

A group that keeps receiving what it cannot decrypt arms a full-history replay, at most once at an
epoch and then paced by a clock.  The groups of a detector do not touch each other: a call that
names several of them is the list of its steps, one for each.

* `GroupStall` — what is kept of a group, and the operations on it under the names of the source;
* `Call`, `Detector` — the calls, and what they do to each group;
* `armed_group_arms_again` — a group at the epoch it armed at can arm again once the pacing
  interval is over, exactly if no replay is marked for it after its run has ended;
* `Sample.returned_never_arms` — a group that is rolled back to such an epoch and never arms.
-/
import Mdk.EngineState
import Mdk.Runs

namespace Mdk

namespace EpochStall

def runContinuationWindowMs : ℕ := 24 * 60 * 60 * 1000
def clockSkewAllowanceMs : ℕ := 5 * 60 * 1000

/-- The thresholds and the pacing interval of a detector. -/
structure Policy where
  threshold : ℕ
  escalationArmThreshold : ℕ
  wedgeRearmIntervalMs : ℕ
  fruitlessCompletionThreshold : ℕ
deriving DecidableEq, Repr

inductive BackfillDecision where
  | skip
  | arm
  | armAndEscalate (arms : ℕ)
deriving DecidableEq, Repr

def BackfillDecision.armsBackfill : BackfillDecision → Bool
  | skip => false
  | arm | armAndEscalate _ => true

structure GroupStall where
  epoch : ℕ
  undecryptable : Finset String
  firedAtEpoch : Option ℕ
  armedAtEpoch : Option ℕ
  arms : ℕ
  escalated : Bool
  fruitlessReported : Bool
  lastArmAtMs : Option ℕ
  fruitlessCompletions : ℕ
deriving DecidableEq

structure EpochStallEvidence where
  stalledEpoch : ℕ
  fruitlessCompletions : ℕ
  fruitlessReported : Bool
  lastArmAtMs : ℕ
deriving DecidableEq, Repr

/-- A mark that is far ahead of the clock counts as fully elapsed. -/
def elapsedSinceMarkMs (nowMs markMs : ℕ) : ℕ :=
  if markMs ≤ nowMs then nowMs - markMs
  else if markMs - nowMs ≤ clockSkewAllowanceMs then 0
  else 2 ^ 64 - 1

def saturatingSucc (n : ℕ) : ℕ := min (n + 1) (2 ^ 32 - 1)

namespace GroupStall

def new (epoch : ℕ) : GroupStall := ⟨epoch, ∅, none, none, 0, false, false, none, 0⟩

variable (stall : GroupStall)

def endRun : GroupStall :=
  { stall with
    arms := 0, escalated := false, fruitlessReported := false, fruitlessCompletions := 0,
    lastArmAtMs := none }

def observeEpoch (epoch : ℕ) : GroupStall :=
  if stall.epoch = epoch then stall
  else
    let left := if stall.armedAtEpoch ≠ some stall.epoch then stall.endRun else stall
    { left with
      epoch := epoch, undecryptable := ∅, firedAtEpoch := none, fruitlessCompletions := 0,
      fruitlessReported := false }

def observeConvergenceReorg : GroupStall := { stall with arms := 0, escalated := false }

/-- Whether the last arm is too long ago for the run to go on. -/
def isStale (nowMs : ℕ) : Bool :=
  stall.lastArmAtMs.any (runContinuationWindowMs < elapsedSinceMarkMs nowMs ·)

def expireRunIfStale (nowMs : ℕ) : GroupStall := if stall.isStale nowMs then stall.endRun else stall

def noteArm (nowMs : ℕ) : GroupStall :=
  { stall with firedAtEpoch := some stall.epoch, lastArmAtMs := some nowMs }

def arm (nowMs escalationArmThreshold : ℕ) : GroupStall × BackfillDecision :=
  let expired := stall.expireRunIfStale nowMs
  let arms := saturatingSucc expired.arms
  let armed := { expired with armedAtEpoch := some expired.epoch, arms := arms }.noteArm nowMs
  if escalationArmThreshold ≤ arms ∧ armed.escalated = false then
    ({ armed with escalated := true }, .armAndEscalate arms)
  else (armed, .arm)

def rearmWedged (nowMs : ℕ) : GroupStall × BackfillDecision :=
  ((stall.expireRunIfStale nowMs).noteArm nowMs, .arm)

def mayRearmWedged (nowMs intervalMs : ℕ) : Bool :=
  stall.armedAtEpoch = some stall.epoch &&
    stall.lastArmAtMs.any (intervalMs ≤ elapsedSinceMarkMs nowMs ·)

/-- What both kinds of traffic end in. -/
def signal (policy : Policy) (nowMs : ℕ) : GroupStall × BackfillDecision :=
  if stall.firedAtEpoch ≠ some stall.epoch then stall.arm nowMs policy.escalationArmThreshold
  else if stall.mayRearmWedged nowMs policy.wedgeRearmIntervalMs then stall.rearmWedged nowMs
  else (stall, .skip)

/-- The set never grows past the point where it decides. -/
def count (threshold : ℕ) (message : String) : GroupStall :=
  if stall.undecryptable.card < threshold then
    { stall with undecryptable := insert message stall.undecryptable } else stall

def observeUndecryptable (policy : Policy) (message : String) (nowMs : ℕ) :
    GroupStall × BackfillDecision :=
  let counted := stall.count policy.threshold message
  if counted.undecryptable.card < policy.threshold then (counted, .skip)
  else counted.signal policy nowMs

/-- Only movement ahead of the observed epoch is followed. -/
def observeEpochPassage (start stop : ℕ) : GroupStall :=
  if stop ≤ start ∨ stop ≤ stall.epoch then stall
  else (if stall.epoch < start + 1 then stall.observeEpoch (start + 1) else stall).observeEpoch stop

def observeFruitlessCompletion (threshold : ℕ) : GroupStall × Option ℕ :=
  if stall.armedAtEpoch ≠ some stall.epoch then (stall, none)
  else
    let completions := saturatingSucc stall.fruitlessCompletions
    let counted := { stall with fruitlessCompletions := completions }
    if threshold ≤ completions ∧ stall.escalated = false ∧ stall.fruitlessReported = false then
      ({ counted with escalated := true, fruitlessReported := true }, some completions)
    else (counted, none)

def restoreWedgeEvidence (evidence : EpochStallEvidence) : GroupStall :=
  { stall with
    epoch := evidence.stalledEpoch
    armedAtEpoch := some evidence.stalledEpoch
    firedAtEpoch := some evidence.stalledEpoch
    lastArmAtMs := some evidence.lastArmAtMs
    fruitlessCompletions := evidence.fruitlessCompletions
    fruitlessReported := evidence.fruitlessReported }

end GroupStall

/-! ### Calls -/

/-- What a call does to one group. -/
inductive Event where
  | undecryptable (message : String) (epoch nowMs : ℕ)
  | resourceRefusal (epoch nowMs : ℕ)
  | groupEpoch (epoch : ℕ)
  | epochPassage (start stop : ℕ)
  | convergenceReorg
  | fruitlessCompletion
  | replayed
  | refused
  | recovered
  | restored (evidence : EpochStallEvidence)
deriving DecidableEq, Repr

inductive Reply where
  | done
  | decided (decision : BackfillDecision)
  | completed (escalation : Option ℕ)
deriving DecidableEq, Repr

def Reply.arms : Reply → Bool
  | decided decision => decision.armsBackfill
  | done | completed _ => false

/-- Traffic tracks the group; everything else finds it tracked or does nothing. -/
def observe (policy : Policy) (stall : Option GroupStall) : Event → Option GroupStall × Reply
  | .undecryptable message epoch nowMs =>
    let next := ((stall.getD (.new epoch)).observeEpoch epoch).observeUndecryptable policy message
      nowMs
    (some next.1, .decided next.2)
  | .resourceRefusal epoch nowMs =>
    let next := ((stall.getD (.new epoch)).observeEpoch epoch).signal policy nowMs
    (some next.1, .decided next.2)
  | .groupEpoch epoch => (stall.map (·.observeEpoch epoch), .done)
  | .epochPassage start stop => (stall.map (·.observeEpochPassage start stop), .done)
  | .convergenceReorg => (stall.map (·.observeConvergenceReorg), .done)
  | .fruitlessCompletion =>
    match stall with
    | none => (none, .completed none)
    | some stall =>
      let next := stall.observeFruitlessCompletion policy.fruitlessCompletionThreshold
      (some next.1, .completed next.2)
  | .replayed => (stall.map fun stall => { stall with firedAtEpoch := some stall.epoch }, .done)
  | .refused => (stall.map fun stall => { stall with firedAtEpoch := none }, .done)
  | .recovered => (none, .done)
  | .restored evidence =>
    (some ((stall.getD (.new evidence.stalledEpoch)).restoreWedgeEvidence evidence), .done)

/-- A call about one group, or `mark_replayed`, which is about all of them. -/
inductive Call where
  | on (group : GroupId) (event : Event)
  | markReplayed
deriving DecidableEq, Repr

def Call.event? (group : GroupId) : Call → Option Event
  | on group' event => if group' = group then some event else none
  | markReplayed => some .replayed

abbrev Detector := GroupId → Option GroupStall

def Detector.step (policy : Policy) (detector : Detector) (call : Call) : Detector := fun group =>
  match call.event? group with
  | none => detector group
  | some event => (observe policy (detector group) event).1

def Detector.reply (policy : Policy) (detector : Detector) (group : GroupId) (event : Event) :
    Reply :=
  (observe policy (detector group) event).2

def Detector.new : Detector := fun _ => none

def Detector.run (policy : Policy) (calls : List Call) : Detector :=
  calls.foldl (Detector.step policy) .new

/-! ### Arming again -/

/-- When the group armed, if it did, or by what it is restored. -/
def Event.armTime (reply : Reply) : Event → Option ℕ
  | undecryptable _ _ nowMs | resourceRefusal _ nowMs => if reply.arms then some nowMs else none
  | restored evidence => some evidence.lastArmAtMs
  | groupEpoch _ | epochPassage _ _ | convergenceReorg | fruitlessCompletion | replayed | refused
  | recovered => none

/-- A detector, with the time at which each group last armed. -/
structure History where
  detector : Detector
  lastArm : GroupId → Option ℕ

def History.new : History := ⟨.new, fun _ => none⟩

def History.step (policy : Policy) (history : History) (call : Call) : History where
  detector := history.detector.step policy call
  lastArm group := ((call.event? group).bind fun event =>
    event.armTime (history.detector.reply policy group event)).or (history.lastArm group)

/-- No replay is marked for a group that is back at the epoch it armed at after its run has
ended. -/
def History.KeepsMarks (history : History) (call : Call) : Prop :=
  ∀ group stall, call.event? group = some .replayed → history.detector group = some stall →
    stall.armedAtEpoch = some stall.epoch → stall.lastArmAtMs ≠ none

/-- A refusal at the epoch a group armed at arms again, once the pacing interval is over. -/
def History.ArmsAgain (policy : Policy) (history : History) : Prop :=
  ∀ group stall nowMs, history.detector group = some stall →
    stall.armedAtEpoch = some stall.epoch →
    (∀ last, history.lastArm group = some last → last + policy.wedgeRearmIntervalMs ≤ nowMs) →
    (history.detector.reply policy group (.resourceRefusal stall.epoch nowMs)).arms = true

/-- The mark of a group is that of its last arm, and is there while the group waits for its
pacing. -/
structure Marked (lastArm : Option ℕ) (stall : GroupStall) : Prop where
  last : ∀ last, stall.lastArmAtMs = some last → lastArm = some last
  fired : stall.firedAtEpoch = some stall.epoch → stall.armedAtEpoch = some stall.epoch →
    stall.lastArmAtMs ≠ none

section Marked

variable {policy : Policy} {stall : GroupStall} {lastArm : Option ℕ} {nowMs : ℕ}

theorem Marked.new (epoch : ℕ) : Marked lastArm (.new epoch) := ⟨nofun, nofun⟩

theorem Marked.observeEpoch (h : Marked lastArm stall) (epoch : ℕ) :
    Marked lastArm (stall.observeEpoch epoch) := by
  unfold GroupStall.observeEpoch
  split
  · exact h
  · refine ⟨fun last hlast => ?_, nofun⟩
    dsimp only at hlast
    split at hlast
    · cases hlast
    · exact h.last last hlast

theorem Marked.observeEpochPassage (h : Marked lastArm stall) (start stop : ℕ) :
    Marked lastArm (stall.observeEpochPassage start stop) := by
  unfold GroupStall.observeEpochPassage
  split
  · exact h
  · split
    · exact (h.observeEpoch _).observeEpoch _
    · exact h.observeEpoch _

/-- Traffic is passed over, or it arms and leaves its mark. -/
theorem signal_cases (stall : GroupStall) (policy : Policy) (nowMs : ℕ) :
    stall.signal policy nowMs = (stall, .skip) ∨
      (stall.signal policy nowMs).2.armsBackfill = true ∧
        (stall.signal policy nowMs).1.lastArmAtMs = some nowMs := by
  unfold GroupStall.signal GroupStall.arm
  split
  · dsimp only
    split
    · exact .inr ⟨rfl, rfl⟩
    · exact .inr ⟨rfl, rfl⟩
  · split
    · exact .inr ⟨rfl, rfl⟩
    · exact .inl rfl

theorem Marked.signal (h : Marked lastArm stall) :
    Marked ((if (Reply.decided (stall.signal policy nowMs).2).arms then some nowMs else none).or
      lastArm) (stall.signal policy nowMs).1 := by
  rcases signal_cases stall policy nowMs with heq | ⟨harms, hlast⟩
  · rw [heq]
    exact h
  · rw [Reply.arms, harms]
    refine ⟨fun last h' => ?_, fun _ _ => by rw [hlast]; exact nofun⟩
    rw [hlast] at h'
    exact h'

theorem Marked.observeUndecryptable (h : Marked lastArm stall) (message : String) :
    Marked ((if (Reply.decided (stall.observeUndecryptable policy message nowMs).2).arms then
      some nowMs else none).or lastArm) (stall.observeUndecryptable policy message nowMs).1 := by
  have hcounted : Marked lastArm (stall.count policy.threshold message) := by
    unfold GroupStall.count
    split
    · exact ⟨h.last, h.fired⟩
    · exact h
  unfold GroupStall.observeUndecryptable
  dsimp only
  split
  · exact hcounted
  · exact hcounted.signal

theorem Marked.observeFruitlessCompletion (h : Marked lastArm stall) (threshold : ℕ) :
    Marked lastArm (stall.observeFruitlessCompletion threshold).1 := by
  unfold GroupStall.observeFruitlessCompletion
  split
  · exact h
  · dsimp only
    split
    · exact ⟨h.last, h.fired⟩
    · exact ⟨h.last, h.fired⟩

/-- A call keeps the mark, unless it marks a replay where the mark is gone. -/
theorem marked_observe {stall : Option GroupStall} {event : Event}
    (h : ∀ s, stall = some s → Marked lastArm s)
    (hkeeps : event = .replayed → ∀ s, stall = some s → s.armedAtEpoch = some s.epoch →
      s.lastArmAtMs ≠ none) :
    ∀ s, (observe policy stall event).1 = some s →
      Marked ((event.armTime (observe policy stall event).2).or lastArm) s := by
  have hgetD : ∀ epoch, Marked lastArm (stall.getD (.new epoch)) := by
    intro epoch
    cases stall with
    | none => exact .new epoch
    | some s => exact h s rfl
  have hmap : ∀ {f : GroupStall → GroupStall}, (∀ s, stall = some s → Marked lastArm (f s)) →
      ∀ s, stall.map f = some s → Marked lastArm s := by
    intro f hf s hs
    obtain ⟨old, hold, rfl⟩ := Option.map_eq_some_iff.mp hs
    exact hf old hold
  cases event with
  | undecryptable message epoch nowMs =>
    rintro _ ⟨⟩
    exact ((hgetD epoch).observeEpoch epoch).observeUndecryptable message
  | resourceRefusal epoch nowMs =>
    rintro _ ⟨⟩
    exact ((hgetD epoch).observeEpoch epoch).signal
  | groupEpoch epoch => exact hmap fun s hs => (h s hs).observeEpoch epoch
  | epochPassage start stop => exact hmap fun s hs => (h s hs).observeEpochPassage start stop
  | convergenceReorg => exact hmap fun s hs => ⟨(h s hs).last, (h s hs).fired⟩
  | fruitlessCompletion =>
    intro s hs
    cases stall with
    | none => cases hs
    | some old =>
      cases hs
      exact (h old rfl).observeFruitlessCompletion _
  | replayed => exact hmap fun s hs => ⟨(h s hs).last, fun _ => hkeeps rfl s hs⟩
  | refused => exact hmap fun s hs => ⟨(h s hs).last, nofun⟩
  | recovered => exact nofun
  | restored evidence =>
    rintro _ ⟨⟩
    exact ⟨fun last hlast => hlast, fun _ _ => nofun⟩

variable {history : History} {call : Call}

/-- All groups of the detector are marked. -/
def History.Marked (history : History) : Prop :=
  ∀ group stall, history.detector group = some stall →
    EpochStall.Marked (history.lastArm group) stall

theorem History.Marked.step (h : history.Marked) (hkeeps : history.KeepsMarks call) :
    (history.step policy call).Marked := by
  intro group stall hstall
  unfold History.step Detector.step at hstall ⊢
  dsimp only at hstall ⊢
  cases hevent : call.event? group with
  | none =>
    rw [hevent] at hstall
    exact h group stall hstall
  | some event =>
    rw [hevent] at hstall
    refine marked_observe (h group) (fun heq s hs => ?_) stall hstall
    exact hkeeps group s (hevent.trans (congrArg some heq)) hs

/-- Where the mark is there, the pacing is over in time. -/
theorem History.Marked.armsAgain (h : history.Marked) : history.ArmsAgain policy := by
  intro group stall nowMs hstall harmed hlater
  have hmarked := h group stall hstall
  have hsame : stall.observeEpoch stall.epoch = stall := if_pos rfl
  rw [Detector.reply, observe, hstall, Option.getD_some, hsame, Reply.arms, GroupStall.signal]
  split
  · rw [GroupStall.arm]
    split <;> rfl
  · rename_i hfired
    obtain ⟨last, hlast⟩ := Option.ne_none_iff_exists'.mp (hmarked.fired (not_not.mp hfired) harmed)
    have hover := hlater last (hmarked.last last hlast)
    have helapsed : policy.wedgeRearmIntervalMs ≤ elapsedSinceMarkMs nowMs last := by
      rw [elapsedSinceMarkMs, if_pos (by omega)]
      omega
    rw [if_pos (by simp [GroupStall.mayRearmWedged, harmed, hlast, helapsed])]
    rfl

/-- Where it is gone, a replay that is marked is the last of it. -/
theorem History.keepsMarks_of_armsAgain (h : (history.step policy call).ArmsAgain policy) :
    history.KeepsMarks call := by
  intro group stall hevent hstall harmed hnone
  have hnext : (history.step policy call).detector group =
      some { stall with firedAtEpoch := some stall.epoch } := by
    simp only [History.step, Detector.step, hevent, hstall]
    rfl
  have harms := h group _ (((history.step policy call).lastArm group).getD 0 +
    policy.wedgeRearmIntervalMs) hnext harmed fun last hlast => by rw [hlast, Option.getD_some]
  simp [Detector.reply, observe, hnext, GroupStall.observeEpoch, GroupStall.signal,
    GroupStall.mayRearmWedged, hnone, Reply.arms, BackfillDecision.armsBackfill] at harms

/-- **A group that armed at its epoch can arm there again** all along exactly the runs in which no
replay is marked for a group that is back at that epoch with its run ended. -/
theorem armed_group_arms_again (policy : Policy) (calls : List Call) :
    Runs.Guarded (History.step policy) History.KeepsMarks .new calls ↔
      ∀ before, before <+: calls →
        (before.foldl (History.step policy) .new).ArmsAgain policy := by
  have hnew : History.new.Marked := fun _ _ hstall => by cases hstall
  exact Runs.guarded_iff (fun _ _ h hkeeps => h.step hkeeps) (fun _ h => h.armsAgain)
    (fun _ _ _ h => History.keepsMarks_of_armsAgain h) hnew

end Marked

namespace Sample

def policy : Policy := ⟨8, 3, 3600000, 3⟩

def group : GroupId := [1]

/-- Two epochs after it armed the group is rolled back, and another group's replay is marked. -/
def returned : List Call :=
  [.on group (.resourceRefusal 5 0), .on group (.groupEpoch 6), .on group (.groupEpoch 7),
    .on group (.groupEpoch 5), .markReplayed]

theorem returned_never_arms :
    let history := returned.foldl (History.step policy) .new
    (∃ stall, history.detector group = some stall ∧ stall.epoch = 5 ∧
      stall.armedAtEpoch = some 5) ∧ history.lastArm group = some 0 ∧
    ∀ nowMs, (history.detector.reply policy group (.resourceRefusal 5 nowMs)).arms = false :=
  ⟨⟨_, rfl, rfl, rfl⟩, rfl, fun _ => rfl⟩

end Sample

end EpochStall

end Mdk
