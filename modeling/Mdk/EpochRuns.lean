/-
Whole runs of the epoch manager: what a publication handle may resolve, and
what the terminal states keep.

A run is a list of operations from the empty manager, with three history
variables the code does not have (`EpochRun`).  On every run a handle resolves
once (`handle_resolves_once`).  Two more laws hold of some runs only.  A halt or
a cleared entry leaves the handle of the interrupted publication recorded, so a
second publication of the same group can be resolved through the first one's
handle (`stale_handle_resolves`); and the operations that are legal from every
state overwrite a disbanded group and freeze a halted one at the epoch of a
commit nobody confirmed (`terminal_states_overwritten`).  Both laws hold on the
runs that avoid exactly those steps:

* `handle_resolves_own_publication` — runs that stage a publication only for a
  group none is recorded for, at the epoch the group is stable at;
* `terminal_states_kept` — runs that never halt a group while a publication of
  it is in flight, and never halt or re-disband a disbanded one.
-/
import Mdk.Runs
import Mdk.EpochManager

open Std (ExtTreeMap)

namespace Mdk

open EpochManager EpochOp

/-- A run so far: the manager, and what it has forgotten. -/
structure EpochRun where
  manager : EpochManager
  /-- The epoch the group of a handle was stable at when the handle was begun. -/
  begunAt : PendingStateRef → Option EpochId
  /-- The epoch of the last stable state a group was in. -/
  lastStable : GroupId → Option EpochId
  /-- The halt a group is in was entered by `markUnrecoverable`. -/
  haltedByMark : GroupId → Bool

namespace EpochRun

def start : EpochRun := ⟨.new, fun _ => none, fun _ => none, fun _ => false⟩

def noteBegun (m : EpochManager) (op : EpochOp) (begunAt : PendingStateRef → Option EpochId) :
    PendingStateRef → Option EpochId :=
  match op.staged with
  | none => begunAt
  | some q =>
    match m.stagingState q with
    | .stable e => fun r => if r = q.pendingRef then some e else begunAt r
    | _ => begunAt

def noteStable (m' : EpochManager) (lastStable : GroupId → Option EpochId) :
    GroupId → Option EpochId := fun g =>
  match m'.state g with
  | some (.stable e) => some e
  | _ => lastStable g

def noteHalt (m : EpochManager) (op : EpochOp) (haltedByMark : GroupId → Bool) :
    GroupId → Bool := fun g =>
  match op with
  -- Marking a group that is halted already changes nothing.
  | .markUnrecoverable g' =>
    if g' = g ∧ m.isUnrecoverable g = false then true else haltedByMark g
  | .restoreUnrecoverable g' _ => if g' = g then false else haltedByMark g
  | _ => haltedByMark g

def step (run : EpochRun) (op : EpochOp) : EpochRun where
  manager := run.manager.apply op
  begunAt := noteBegun run.manager op run.begunAt
  lastStable := noteStable (run.manager.apply op) run.lastStable
  haltedByMark := noteHalt run.manager op run.haltedByMark

/-- The run that performs `ops` from the empty manager. -/
def perform (ops : List EpochOp) : EpochRun := ops.foldl step start

end EpochRun

/-! ### A handle resolves its own publication -/

/-- Whatever `confirmPublish` or `rollbackPublish` resolves through `r` is the
publication begun under `r`, and a rollback returns to the epoch its group was
stable at when `r` was begun. -/
def ResolvesOwnPublication (run : EpochRun) : Prop :=
  ∀ r g e,
    ((run.manager.confirmPublish r).2 = .ok (g, e) →
      ∃ p, run.manager.groupForPending r = some g ∧
        run.manager.state g = some (.pendingPublish p) ∧ p.pendingRef = r) ∧
    ((run.manager.rollbackPublish r).2 = .ok (g, e) →
      (∃ p, run.manager.groupForPending r = some g ∧
        run.manager.state g = some (.pendingPublish p) ∧ p.pendingRef = r) ∧
      run.begunAt r = some e ∧
      (run.manager.rollbackPublish r).1.state g = some (.stable e))

/-- A publication is staged only for a group that has no other one recorded,
and with the epoch that group is stable at as its rollback epoch. -/
def stagesAlone (m : EpochManager) (op : EpochOp) : Bool :=
  match op.staged with
  | none => true
  | some q =>
    match m.stagingState q with
    | .stable e =>
      (m.pendingRefsForGroup q.groupId).all (· == q.pendingRef) && q.preCommitEpoch == e
    | _ => true

variable {m : EpochManager} {op : EpochOp} {e : EpochId}

theorem stagesAlone_of_stable {q : PendingRequest} (h : stagesAlone m op = true)
    (hop : op.staged = some q) (hst : m.stagingState q = .stable e) :
    (∀ (r : PendingStateRef) pm, m.pending[r]? = some pm → pm.groupId = q.groupId →
        r = q.pendingRef) ∧
      q.preCommitEpoch = e := by
  simp only [stagesAlone, hop, hst, Bool.and_eq_true, List.all_eq_true, beq_iff_eq] at h
  exact ⟨fun r pm hr hg => h.1 r (mem_pendingRefsForGroup.mpr ⟨pm, hr, hg⟩), h.2⟩

/-- The invariant behind `ResolvesOwnPublication`. -/
structure HandlesAgree (run : EpochRun) : Prop where
  /-- A group with a publication in flight has no other handle recorded. -/
  alone : ∀ r pm p, run.manager.InFlight r pm p → r = p.pendingRef
  /-- The recorded rollback epoch is the one the handle was begun at. -/
  rollbackEpoch : ∀ (r : PendingStateRef) pm, run.manager.pending[r]? = some pm →
    run.begunAt r = some pm.priorEpoch

open EpochRun

theorem handlesAgree_start : HandlesAgree start where
  alone := by simp [EpochManager.InFlight, start, new]
  rollbackEpoch := by simp [start, new]

theorem HandlesAgree.resolvesOwnPublication {run : EpochRun} (h : HandlesAgree run) :
    ResolvesOwnPublication run := by
  intro r g e
  have own : ∀ {pm p}, run.manager.InFlight r pm p → pm.groupId = g →
      ∃ p, run.manager.groupForPending r = some g ∧
        run.manager.state g = some (.pendingPublish p) ∧ p.pendingRef = r := by
    rintro pm p hin rfl
    exact ⟨p, by simp [groupForPending, hin.1], hin.2, (h.alone r pm p hin).symm⟩
  constructor
  · intro hok
    obtain ⟨pm, p, hin, hg, -⟩ := confirmPublish_ok hok
    exact own hin hg
  · intro hok
    obtain ⟨pm, p, hin, hg, he, hm⟩ := rollbackPublish_ok hok
    refine ⟨own hin hg, he ▸ h.rollbackEpoch r pm hin.1, ?_⟩
    subst hg
    simp [hm, resolved, state]

theorem noteBegun_of_refused (h : ∀ q, op.staged = some q → ∀ e, m.stagingState q ≠ .stable e)
    (begunAt : PendingStateRef → Option EpochId) : noteBegun m op begunAt = begunAt := by
  unfold noteBegun
  split
  · rfl
  · rename_i q hq
    split
    · rename_i e he
      exact absurd he (h q hq e)
    · rfl

theorem handlesAgree_step (run : EpochRun) (op : EpochOp) (h : HandlesAgree run)
    (hguard : stagesAlone run.manager op = true) : HandlesAgree (run.step op) := by
  obtain ⟨q, e, hop, hst, hs, hp⟩ | ⟨hop, hretires⟩ :=
    (run.manager.apply_effect op).began_or_retires
  · -- The group of `q` had no other handle, so the one staged now is its only one.
    obtain ⟨halone, rfl⟩ := stagesAlone_of_stable hguard hop hst
    constructor
    · rintro r pm p ⟨hr, hpm⟩
      simp only [step, hp, ExtTreeMap.getElem?_insert, Std.compare_eq_iff_eq] at hr
      rw [state, step, state_insert _ _ _ _ hs] at hpm
      split at hr
      · -- The new handle itself.
        grind
      · -- An older handle: of another group, since this one had none.
        rename_i hne
        split at hpm
        · rename_i hg
          exact absurd (halone r pm hr hg.symm).symm hne
        · exact h.alone r pm p ⟨hr, hpm⟩
    · intro r pm hr
      simp only [step, hp, ExtTreeMap.getElem?_insert, Std.compare_eq_iff_eq] at hr
      simp only [step, noteBegun, hop, hst]
      have := h.rollbackEpoch r pm
      grind
  · -- Whatever is recorded or in flight afterwards was so before.
    constructor
    · rintro r pm p ⟨hr, hpm⟩
      exact h.alone r pm p ⟨hretires.pending r pm hr, hretires.state _ p hpm⟩
    · intro r pm hr
      rw [step, noteBegun_of_refused hop]
      exact h.rollbackEpoch r pm (hretires.pending r pm hr)

/-- **A handle resolves only its own publication**, in every run whose staging
steps find no other publication of the group recorded. -/
theorem handle_resolves_own_publication (ops : List EpochOp)
    (h : Runs.Guarded EpochRun.step (fun run op => stagesAlone run.manager op = true)
      EpochRun.start ops) :
    ResolvesOwnPublication (EpochRun.perform ops) :=
  (h.invariant handlesAgree_step handlesAgree_start).resolvesOwnPublication

/-- Every `beginPending` takes a handle the allocator gave out and no earlier
`beginPending` took. -/
def usesFreshRefs : EpochManager → List PendingStateRef → List EpochOp → Bool
  | _, _, [] => true
  | m, unused, .nextPendingRef :: ops =>
    usesFreshRefs m.nextPendingRef.1 (m.nextPendingRef.2 :: unused) ops
  | m, unused, .beginPending q :: ops =>
    unused.contains q.pendingRef &&
      usesFreshRefs (m.apply (.beginPending q)) (unused.erase q.pendingRef) ops
  | m, unused, op :: ops => usesFreshRefs (m.apply op) unused ops

/-- A publication from epoch 7 to 8 of the group `[171]`, under the handle `r`. -/
def sampleRequest (r : PendingStateRef) : PendingRequest :=
  ⟨[171], 7, 8, [205], r, .groupEvolution⟩

theorem handle_resolves_own_publication_sample :
    ResolvesOwnPublication (EpochRun.perform
      [.setStable [171] 7, .nextPendingRef, .beginPending (sampleRequest 1)]) :=
  handle_resolves_own_publication _ (by decide)

/-- A publication is staged, the group is halted and repaired, and a second one
is staged under a fresh handle. -/
def staleHandleOps : List EpochOp :=
  [.setStable [171] 7, .nextPendingRef, .beginPending (sampleRequest 1),
    .markUnrecoverable [171], .repairToStable [171] 7,
    .nextPendingRef, .beginPending (sampleRequest 2)]

/-- The handle of the interrupted publication still resolves: it confirms the
second one. -/
theorem stale_handle_resolves :
    usesFreshRefs .new [] staleHandleOps = true ∧
      ¬ ResolvesOwnPublication (EpochRun.perform staleHandleOps) := by
  refine ⟨by decide, fun h => ?_⟩
  -- Handle 1 confirms epoch 8, but the group waits for handle 2.
  obtain ⟨p, -, hst, hp⟩ := (h 1 [171] 8).1 rfl
  have hsecond : (perform staleHandleOps).manager.state [171] =
      some (.pendingPublish ⟨8, [205], 2⟩) := by decide
  rw [hsecond] at hst
  cases hst
  cases hp

variable {r : PendingStateRef}

theorem unrecorded_step (h : m.pending[r]? = none) (hop : op.staged.map (·.pendingRef) ≠ some r) :
    (m.apply op).pending[r]? = none := by
  obtain ⟨q, e, hq, -, -, hp⟩ | ⟨-, hretires⟩ := (m.apply_effect op).began_or_retires
  · grind
  · have hrecorded := hretires.pending r
    grind

/-- **A handle resolves once**: it is unknown afterwards, until it is staged again. -/
theorem handle_resolves_once {pm : PendingMeta} {p : PendingPublish} (h : m.InFlight r pm p)
    (hop : op = .confirmPublish r ∨ op = .rollbackPublish r) (ops : List EpochOp)
    (hops : ∀ op ∈ ops, op.staged.map (·.pendingRef) ≠ some r) :
    let m' := (op :: ops).foldl apply m
    (m'.confirmPublish r).2 = .error .unknownPending ∧
      (m'.rollbackPublish r).2 = .error .unknownPending := by
  have hgone : (m.apply op).pending[r]? = none := by
    rcases hop with rfl | rfl
    · simp [apply, confirmPublish_inFlight h, resolved]
    · simp [apply, rollbackPublish_inFlight h, resolved]
  have hunknown := ops.foldlRecOn (motive := fun m => m.pending[r]? = none) apply hgone
    fun m hm op hmem => unrecorded_step hm (hops op hmem)
  simp [EpochManager.confirmPublish, EpochManager.rollbackPublish, hunknown]

theorem handle_resolves_once_sample :
    (([.confirmPublish 1, .setStable [171] 9].foldl apply (perform
      [.setStable [171] 7, .beginPending (sampleRequest 1)]).manager).rollbackPublish 1).2 =
        .error .unknownPending :=
  (handle_resolves_once ⟨rfl, rfl⟩ (.inl rfl) [.setStable [171] 9] (by decide)).2

/-! ### Terminal and frozen states -/

/-- Halts and terminalizations that find the group where they may: a halt is
marked only on a stable or an already halted group, and a disbanded group is
neither halted nor disbanded again at another epoch. -/
def respectsTerminal (m : EpochManager) : EpochOp → Bool
  | .markUnrecoverable g =>
    match m.state g with
    | some (.stable _) | some (.unrecoverable _) => true
    | _ => false
  | .restoreUnrecoverable g _ => !m.isDisbanded g
  | .markDisbanded g e | .restoreDisbanded g e =>
    match m.state g with
    | some (.disbanded e₀) => e₀ == e
    | _ => true
  | _ => true

/-- The operations that take a group's entry away. -/
def EpochOp.removes (op : EpochOp) (g : GroupId) : Bool :=
  op == .forgetGroup g || op == .clearGroupState g

/-- What the history variables say about the groups of a run. -/
structure EpochsRemembered (run : EpochRun) : Prop where
  stable : ∀ g e, run.manager.state g = some (.stable e) → run.lastStable g = some e
  halted : ∀ g e, run.manager.state g = some (.unrecoverable e) → run.haltedByMark g = true →
    run.lastStable g = some e

theorem epochsRemembered_start : EpochsRemembered start where
  stable := by simp [start, new, state]
  halted := by simp [start, new, state]

variable {g : GroupId}

/-- A halted group keeps the flag it had, unless the halt is restored. -/
theorem noteHalt_of_unrecoverable {haltedByMark : GroupId → Bool}
    (hst : m.state g = some (.unrecoverable e)) (h : noteHalt m op haltedByMark g = true) :
    haltedByMark g = true := by
  have hun : m.isUnrecoverable g = true := by
    simp [isUnrecoverable, hst, EpochState.isUnrecoverable]
  cases op with
  | markUnrecoverable g' => simpa [noteHalt, hun] using h
  | restoreUnrecoverable g' e' =>
    simp only [noteHalt] at h
    split at h
    · cases h
    · exact h
  | _ => exact h

theorem epochsRemembered_step (run : EpochRun) (op : EpochOp) (h : EpochsRemembered run)
    (hguard : respectsTerminal run.manager op = true) : EpochsRemembered (run.step op) := by
  constructor
  · intro g e hst
    simp only [step] at hst
    simp only [step, noteStable, hst]
  · intro g e hst hmark
    simp only [step] at hst hmark
    simp only [step, noteStable, hst]
    obtain hbefore | ⟨rfl, rfl⟩ | rfl := (run.manager.apply_effect op).unrecoverable_cases hst
    · -- It was halted before the step.
      exact h.halted g e hbefore (noteHalt_of_unrecoverable hbefore hmark)
    · -- The halt is marked now: the guard leaves a stable or a halted group.
      simp only [respectsTerminal] at hguard
      split at hguard
      · rename_i e₀ he₀
        simp only [he₀]
        exact h.stable g e₀ he₀
      · rename_i e₀ he₀
        simp only [he₀]
        exact h.halted g e₀ he₀ (noteHalt_of_unrecoverable he₀ hmark)
      · cases hguard
    · -- A restored halt is not one that was marked.
      simp [noteHalt] at hmark

theorem disbanded_step (hst : m.state g = some (.disbanded e))
    (hguard : respectsTerminal m op = true) (hkeep : op.removes g = false) :
    (m.apply op).state g = some (.disbanded e) := by
  by_cases hover : op.overridesDisband g = false
  · exact (m.apply_effect op).disbanded_kept hst hover
  · -- Each operation that could override the state is excluded by the guard or by `hkeep`.
    rw [Bool.not_eq_false] at hover
    cases op with
    | markUnrecoverable g' =>
      obtain rfl : g' = g := by simpa [overridesDisband] using hover
      simp [respectsTerminal, hst] at hguard
    | restoreUnrecoverable g' e' =>
      obtain rfl : g' = g := by simpa [overridesDisband] using hover
      simp [respectsTerminal, isDisbanded, hst, EpochState.isDisbanded] at hguard
    | markDisbanded g' e' | restoreDisbanded g' e' =>
      obtain rfl : g' = g := by simpa [overridesDisband] using hover
      obtain rfl : e = e' := by simpa [respectsTerminal, hst] using hguard
      simp [apply, EpochManager.markDisbanded, EpochManager.restoreDisbanded,
        state]
    | clearGroupState g' | forgetGroup g' =>
      obtain rfl : g' = g := by simpa [overridesDisband] using hover
      simp [removes] at hkeep
    | _ => cases hover

theorem disbanded_run {run : EpochRun} {ops : List EpochOp}
    (h : Runs.Guarded step (fun run op => respectsTerminal run.manager op = true) run ops)
    (hst : run.manager.state g = some (.disbanded e)) (hkeep : ∀ op ∈ ops, op.removes g = false) :
    (ops.foldl step run).manager.state g = some (.disbanded e) := by
  induction ops generalizing run with
  | nil => exact hst
  | cons op ops ih =>
    obtain ⟨hop, hrest⟩ := h
    exact ih hrest (disbanded_step hst hop (hkeep op List.mem_cons_self))
      fun op' hop' => hkeep op' (List.mem_cons_of_mem _ hop')

open EpochRun

/-- Once the group is disbanded it stays so, at the same epoch, until its entry
is removed. -/
def DisbandIsFinal (ops : List EpochOp) : Prop :=
  ∀ before later g e, ops = before ++ later →
    (perform before).manager.state g = some (.disbanded e) →
    (∀ op ∈ later, op.removes g = false) →
    (perform ops).manager.state g = some (.disbanded e)

/-- A group halted by `markUnrecoverable` is frozen at the last epoch it was
stable at. -/
def HaltFreezesStableEpoch (ops : List EpochOp) : Prop :=
  ∀ g e, (perform ops).manager.state g = some (.unrecoverable e) →
    (perform ops).haltedByMark g = true →
    (perform ops).lastStable g = some e

/-- **Terminal and frozen states keep their meaning**, in every run that marks
halts on stable or halted groups only and leaves disbanded groups alone. -/
theorem terminal_states_kept (ops : List EpochOp)
    (h : Runs.Guarded EpochRun.step (fun run op => respectsTerminal run.manager op = true)
      EpochRun.start ops) : DisbandIsFinal ops ∧ HaltFreezesStableEpoch ops := by
  constructor
  · rintro before later g e rfl hst hkeep
    rw [perform, List.foldl_append]
    exact disbanded_run h.split.2 hst hkeep
  · exact (h.invariant epochsRemembered_step epochsRemembered_start).halted

theorem terminal_states_kept_sample :
    (DisbandIsFinal [.setStable [171] 7, .markUnrecoverable [171], .markDisbanded [171] 8,
        .setStable [171] 9]) ∧
      HaltFreezesStableEpoch [.setStable [171] 7, .markUnrecoverable [171],
        .markDisbanded [171] 8, .setStable [171] 9] :=
  terminal_states_kept _ (by decide)

/-- A halt takes a disbanded group out of its terminal state, and a halt during
a publication freezes the group at the epoch of the unconfirmed commit. -/
theorem terminal_states_overwritten :
    ¬ DisbandIsFinal [.markDisbanded [171] 7, .markUnrecoverable [171]] ∧
      ¬ HaltFreezesStableEpoch [.setStable [171] 7, .nextPendingRef,
        .beginPending (sampleRequest 1), .markUnrecoverable [171]] := by
  constructor
  · intro h
    have := h [.markDisbanded [171] 7] [.markUnrecoverable [171]] [171] 7 rfl (by decide)
      (by decide)
    revert this
    decide
  · intro h
    have := h [171] 8 (by decide) (by decide)
    revert this
    decide

end Mdk
