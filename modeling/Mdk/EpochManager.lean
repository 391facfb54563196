/-
The epoch manager, `crates/cgka-engine/src/epoch_manager.rs`: the only owner of
per-group epoch state.

It keeps two maps in step by hand: the state of every group, and, for every
publication handle that has not been resolved, the group it belongs to and the
epoch a rollback returns to.  Operations that can fail return the manager next
to their result, because one of them (`restorePending`) moves the allocator
even when it then fails.

* `confirmPublish_ok`, `rollbackPublish_ok` — when the two resolutions succeed,
  and what they leave behind;
* `apply_effect` — everything one operation can do to the two maps, as the
  relation `Effect`; the invariants of later files case on it.
-/
import Mdk.EngineState

open Std (ExtTreeMap)

namespace Mdk

/-- The errors of `EngineError` this component returns. -/
inductive EngineError where
  | unknownGroup (groupId : GroupId)
  | unknownPending
  | invalidTransition (t : InvalidTransition)
deriving DecidableEq, Repr

inductive PendingKind where
  | createGroup
  | groupEvolution
  | disband
deriving DecidableEq, Repr

/-- Per-pending sidecar: the originating group and the epoch to revert to. -/
structure PendingMeta where
  groupId : GroupId
  priorEpoch : EpochId
  kind : PendingKind
deriving DecidableEq, Repr

structure EpochManager where
  states : ExtTreeMap GroupId EpochState
  pendingCounter : UInt64
  pending : ExtTreeMap PendingStateRef PendingMeta

namespace EpochManager

def new : EpochManager := ⟨∅, 0, ∅⟩

section

variable (m : EpochManager) (groupId : GroupId)

def pendingRefsForGroup : List PendingStateRef :=
  (m.pending.toList.filter fun entry => entry.2.groupId == groupId).map (·.1)

def forgetGroup : EpochManager :=
  { m with
    states := m.states.erase groupId
    pending := m.pending.filter fun _ pm => pm.groupId != groupId }

def clearGroupState : EpochManager :=
  -- Unlike `forgetGroup`, the handles of the group stay recorded.
  { m with states := m.states.erase groupId }

/-! ### Queries -/

def state : Option EpochState := m.states[groupId]?

def isUnrecoverable : Bool :=
  (m.state groupId).any EpochState.isUnrecoverable

def isDisbanded : Bool :=
  (m.state groupId).any EpochState.isDisbanded

def isResolvingLocalPublish : Bool :=
  (m.state groupId).any EpochState.isResolvingLocalPublish

variable (pending : PendingStateRef)

def groupForPending : Option GroupId :=
  m.pending[pending]?.map (·.groupId)

/-! ### Mutations -/

def nextPendingRef : EpochManager × PendingStateRef :=
  let counter := m.pendingCounter + 1
  ({ m with pendingCounter := counter }, counter)

variable (epoch : EpochId)

def setStable : EpochManager :=
  if m.isUnrecoverable groupId || m.isDisbanded groupId then m
  -- Going stable here would strand the handle of the publication in flight.
  else if m.isResolvingLocalPublish groupId then m
  else { m with states := m.states.insert groupId (.stable epoch) }

variable (preCommitEpoch newEpoch : EpochId)

def beginPending (pending : StagedCommitHandle) (pendingRef : PendingStateRef) (kind : PendingKind)
    : EpochManager × Except EngineError Unit :=
  -- A group without an entry is staged from the epoch the caller names.
  let prev := (m.state groupId).getD (.stable preCommitEpoch)
  match prev.beginPending newEpoch pending pendingRef with
  | .error t => (m, .error (.invalidTransition t))
  | .ok newState =>
    ({ m with
       states := m.states.insert groupId newState
       pending := m.pending.insert pendingRef ⟨groupId, preCommitEpoch, kind⟩ }, .ok ())

def restorePending (pending : StagedCommitHandle) (pendingRef : PendingStateRef)
    (kind : PendingKind) : EpochManager × Except EngineError Unit :=
  -- The allocator moves past the restored handle even if staging then fails.
  { m with pendingCounter := max m.pendingCounter pendingRef }.beginPending
    groupId preCommitEpoch newEpoch pending pendingRef kind

def confirmPublish : EpochManager × Except EngineError (GroupId × EpochId) :=
  match m.pending[pending]? with
  | none => (m, .error .unknownPending)
  | some pm =>
    match m.state pm.groupId with
    | none => (m, .error (.unknownGroup pm.groupId))
    | some prev =>
      match prev.confirmPublish with
      | .error t => (m, .error (.invalidTransition t))
      | .ok merging =>
        match merging.mergeToStable merging.epoch with
        | .error t => (m, .error (.invalidTransition t))
        | .ok stable =>
          ({ m with
             states := m.states.insert pm.groupId stable
             pending := m.pending.erase pending }, .ok (pm.groupId, merging.epoch))

def rollbackPublish : EpochManager × Except EngineError (GroupId × EpochId) :=
  match m.pending[pending]? with
  | none => (m, .error .unknownPending)
  | some pm =>
    match m.state pm.groupId with
    | none => (m, .error (.unknownGroup pm.groupId))
    | some prev =>
      match prev.rollbackPending pm.priorEpoch with
      | .error t => (m, .error (.invalidTransition t))
      | .ok stable =>
        ({ m with
           states := m.states.insert pm.groupId stable
           pending := m.pending.erase pending }, .ok (pm.groupId, pm.priorEpoch))

def markUnrecoverable : EpochManager :=
  -- Legal from every state; an entry for an in-flight publication is left behind.
  let prev := (m.state groupId).getD (.stable 0)
  { m with states := m.states.insert groupId prev.toUnrecoverable }

def restoreUnrecoverable (lastStableEpoch : EpochId) : EpochManager :=
  { m with
    states := m.states.insert groupId (EpochState.stable lastStableEpoch).toUnrecoverable }

def repairToStable : EpochManager × Except EngineError Unit :=
  let prev := (m.state groupId).getD (EpochState.stable 0).toUnrecoverable
  match prev.repairToStable epoch with
  | .error t => (m, .error (.invalidTransition t))
  | .ok new => ({ m with states := m.states.insert groupId new }, .ok ())

def markDisbanded : EpochManager × Except EngineError Unit :=
  -- The way through `detectFork` makes the transition legal from every state.
  let previous := (m.state groupId).getD (.stable epoch)
  match previous.detectFork.settleToDisbanded epoch with
  | .error t => (m, .error (.invalidTransition t))
  | .ok next => ({ m with states := m.states.insert groupId next }, .ok ())

def restoreDisbanded : EpochManager × Except EngineError Unit :=
  match (EpochState.stable epoch).detectFork.settleToDisbanded epoch with
  | .error t => (m, .error (.invalidTransition t))
  | .ok disbanded => ({ m with states := m.states.insert groupId disbanded }, .ok ())

/-! ### The state of one group after an update -/

theorem state_insert (g g' : GroupId) (s : EpochState) {states : ExtTreeMap GroupId EpochState}
    (h : states = m.states.insert g s) : states[g']? = if g = g' then some s else m.state g' := by
  subst h
  simp [state, ExtTreeMap.getElem?_insert]

theorem state_erase (g g' : GroupId) {states : ExtTreeMap GroupId EpochState}
    (h : states = m.states.erase g) : states[g']? = if g = g' then none else m.state g' := by
  subst h
  simp [state, ExtTreeMap.getElem?_erase]

end

variable {r : PendingStateRef} {m : EpochManager} {g : GroupId}

theorem mem_pendingRefsForGroup :
    r ∈ m.pendingRefsForGroup g ↔ ∃ pm, m.pending[r]? = some pm ∧ pm.groupId = g := by
  simp [pendingRefsForGroup, ExtTreeMap.mem_toList_iff_getElem?_eq_some]

/-! ### When a publication resolves -/

/-- The publication recorded for `r` is `pm`, and its group has one in flight. -/
def InFlight (m : EpochManager) (r : PendingStateRef) (pm : PendingMeta) (p : PendingPublish) :
    Prop :=
  m.pending[r]? = some pm ∧ m.state pm.groupId = some (.pendingPublish p)

/-- The manager once the publication `r` of `pm` is resolved at `epoch`. -/
def resolved (m : EpochManager) (r : PendingStateRef) (pm : PendingMeta) (epoch : EpochId) :
    EpochManager :=
  { m with
    states := m.states.insert pm.groupId (.stable epoch)
    pending := m.pending.erase r }

theorem resolved_states (m : EpochManager) (r : PendingStateRef) (pm : PendingMeta)
    (epoch : EpochId) :
    (m.resolved r pm epoch).states = m.states.insert pm.groupId (.stable epoch) := rfl

theorem confirmPublish_inFlight {pm : PendingMeta} {p : PendingPublish} (h : m.InFlight r pm p) :
    m.confirmPublish r = (m.resolved r pm p.epoch, .ok (pm.groupId, p.epoch)) := by
  obtain ⟨hr, hs⟩ := h
  simp [confirmPublish, hr, hs, EpochState.confirmPublish, EpochState.mergeToStable,
    EpochState.epoch, resolved]

theorem rollbackPublish_inFlight {pm : PendingMeta} {p : PendingPublish} (h : m.InFlight r pm p) :
    m.rollbackPublish r =
      (m.resolved r pm pm.priorEpoch, .ok (pm.groupId, pm.priorEpoch)) := by
  obtain ⟨hr, hs⟩ := h
  simp [rollbackPublish, hr, hs, EpochState.rollbackPending, resolved]

theorem confirmPublish_cases (m : EpochManager) (r : PendingStateRef) :
    (∃ pm p, m.InFlight r pm p ∧
      m.confirmPublish r = (m.resolved r pm p.epoch, .ok (pm.groupId, p.epoch))) ∨
    ∃ err, m.confirmPublish r = (m, .error err) := by
  cases hr : m.pending[r]? with
  | none => exact .inr (by simp [confirmPublish, hr])
  | some pm =>
    cases hs : m.state pm.groupId with
    | none => exact .inr (by simp [confirmPublish, hr, hs])
    | some prev =>
      cases prev with
      | pendingPublish p =>
        have hin : m.InFlight r pm p := ⟨hr, hs⟩
        exact .inl ⟨pm, p, hin, confirmPublish_inFlight hin⟩
      | _ => exact .inr (by simp [confirmPublish, hr, hs, EpochState.confirmPublish])

theorem rollbackPublish_cases (m : EpochManager) (r : PendingStateRef) :
    (∃ pm p, m.InFlight r pm p ∧
      m.rollbackPublish r = (m.resolved r pm pm.priorEpoch, .ok (pm.groupId, pm.priorEpoch))) ∨
    ∃ err, m.rollbackPublish r = (m, .error err) := by
  cases hr : m.pending[r]? with
  | none => exact .inr (by simp [rollbackPublish, hr])
  | some pm =>
    cases hs : m.state pm.groupId with
    | none => exact .inr (by simp [rollbackPublish, hr, hs])
    | some prev =>
      cases prev with
      | pendingPublish p =>
        have hin : m.InFlight r pm p := ⟨hr, hs⟩
        exact .inl ⟨pm, p, hin, rollbackPublish_inFlight hin⟩
      | _ => exact .inr (by simp [rollbackPublish, hr, hs, EpochState.rollbackPending])

theorem confirmPublish_ok {e : EpochId} (h : (m.confirmPublish r).2 = .ok (g, e)) :
    ∃ pm p, m.InFlight r pm p ∧ pm.groupId = g ∧ p.epoch = e := by
  obtain ⟨pm, p, hin, heq⟩ | ⟨err, heq⟩ := m.confirmPublish_cases r
  · rw [heq] at h
    cases h
    exact ⟨pm, p, hin, rfl, rfl⟩
  · rw [heq] at h
    cases h

theorem rollbackPublish_ok {e : EpochId} (h : (m.rollbackPublish r).2 = .ok (g, e)) :
    ∃ pm p, m.InFlight r pm p ∧ pm.groupId = g ∧ pm.priorEpoch = e ∧
      (m.rollbackPublish r).1 = m.resolved r pm e := by
  obtain ⟨pm, p, hin, heq⟩ | ⟨err, heq⟩ := m.rollbackPublish_cases r
  · rw [heq] at h
    cases h
    exact ⟨pm, p, hin, rfl, rfl, by rw [heq]⟩
  · rw [heq] at h
    cases h

/-! ### Operations as data -/

end EpochManager

/-- The arguments `begin_pending` and `restore_pending` share. -/
structure PendingRequest where
  groupId : GroupId
  preCommitEpoch : EpochId
  newEpoch : EpochId
  pending : StagedCommitHandle
  pendingRef : PendingStateRef
  kind : PendingKind
deriving DecidableEq, Repr

/-- The mutating operations of the manager. -/
inductive EpochOp where
  | nextPendingRef
  | beginPending (q : PendingRequest)
  | restorePending (q : PendingRequest)
  | confirmPublish (pending : PendingStateRef)
  | rollbackPublish (pending : PendingStateRef)
  | setStable (groupId : GroupId) (epoch : EpochId)
  | markUnrecoverable (groupId : GroupId)
  | restoreUnrecoverable (groupId : GroupId) (lastStableEpoch : EpochId)
  | repairToStable (groupId : GroupId) (epoch : EpochId)
  | markDisbanded (groupId : GroupId) (epoch : EpochId)
  | restoreDisbanded (groupId : GroupId) (epoch : EpochId)
  | clearGroupState (groupId : GroupId)
  | forgetGroup (groupId : GroupId)
deriving DecidableEq, Repr

/-- The publication an operation tries to stage, if it is one of the two that do. -/
def EpochOp.staged : EpochOp → Option PendingRequest
  | .beginPending q | .restorePending q => some q
  | _ => none

open EpochOp

/-- The operations that can take the group `g` out of its disbanded state. -/
def EpochOp.overridesDisband (g : GroupId) : EpochOp → Bool
  | .markUnrecoverable g' | .restoreUnrecoverable g' _ | .markDisbanded g' _
  | .restoreDisbanded g' _ | .clearGroupState g' | .forgetGroup g' => g' == g
  | _ => false

namespace EpochManager

/-- The manager an operation leaves behind, whether or not it succeeds. -/
def apply (m : EpochManager) : EpochOp → EpochManager
  | .nextPendingRef => m.nextPendingRef.1
  | .beginPending q =>
    (m.beginPending q.groupId q.preCommitEpoch q.newEpoch q.pending q.pendingRef q.kind).1
  | .restorePending q =>
    (m.restorePending q.groupId q.preCommitEpoch q.newEpoch q.pending q.pendingRef q.kind).1
  | .confirmPublish r => (m.confirmPublish r).1
  | .rollbackPublish r => (m.rollbackPublish r).1
  | .setStable g e => m.setStable g e
  | .markUnrecoverable g => m.markUnrecoverable g
  | .restoreUnrecoverable g e => m.restoreUnrecoverable g e
  | .repairToStable g e => (m.repairToStable g e).1
  | .markDisbanded g e => (m.markDisbanded g e).1
  | .restoreDisbanded g e => (m.restoreDisbanded g e).1
  | .clearGroupState g => m.clearGroupState g
  | .forgetGroup g => m.forgetGroup g

/-- The state `q` is staged from: a group with no entry counts as stable at the
epoch the caller names. -/
def stagingState (m : EpochManager) (q : PendingRequest) : EpochState :=
  (m.state q.groupId).getD (.stable q.preCommitEpoch)

/-- Everything one operation can do to the two maps. -/
inductive Effect (m : EpochManager) : EpochOp → EpochManager → Prop
  | unchanged {op m'} (hs : m'.states = m.states) (hp : m'.pending = m.pending)
      (hop : ∀ q, op.staged = some q → ∀ e, m.stagingState q ≠ .stable e) : Effect m op m'
  | began {op m' e} (q : PendingRequest) (hop : op.staged = some q)
      (hst : m.stagingState q = .stable e)
      (hs : m'.states = m.states.insert q.groupId
        (.pendingPublish ⟨q.newEpoch, q.pending, q.pendingRef⟩))
      (hp : m'.pending =
        m.pending.insert q.pendingRef ⟨q.groupId, q.preCommitEpoch, q.kind⟩) : Effect m op m'
  | resolved {op} (r pm p e) (hin : m.InFlight r pm p)
      (hop : op = .confirmPublish r ∨ op = .rollbackPublish r) :
      Effect m op (m.resolved r pm e)
  | settled {op m'} (g e) (hop : op = .setStable g e ∨ op = .repairToStable g e)
      (hst : ∀ s, m.state g = some s → s.isDisbanded = false ∧ s.isResolvingLocalPublish = false)
      (hs : m'.states = m.states.insert g (.stable e)) (hp : m'.pending = m.pending) :
      Effect m op m'
  | halted {m'} (g)
      (hs : m'.states = m.states.insert g
        (.unrecoverable ((m.state g).getD (.stable 0)).epoch))
      (hp : m'.pending = m.pending) : Effect m (.markUnrecoverable g) m'
  | haltRestored {m'} (g e) (hs : m'.states = m.states.insert g (.unrecoverable e))
      (hp : m'.pending = m.pending) : Effect m (.restoreUnrecoverable g e) m'
  | disbanded {op m'} (g e) (hop : op = .markDisbanded g e ∨ op = .restoreDisbanded g e)
      (hs : m'.states = m.states.insert g (.disbanded e)) (hp : m'.pending = m.pending) :
      Effect m op m'
  | cleared {m'} (g) (hs : m'.states = m.states.erase g) (hp : m'.pending = m.pending) :
      Effect m (.clearGroupState g) m'
  | forgotten {m'} (g) (hs : m'.states = m.states.erase g)
      (hp : m'.pending = m.pending.filter fun _ pm => pm.groupId != g) :
      Effect m (.forgetGroup g) m'

variable {op : EpochOp}

/-- Both staging operations, from a manager that differs from `m` in the
allocator at most. -/
theorem beginPending_effect {m m₀ : EpochManager} {q : PendingRequest} (hop : op.staged = some q)
    (hs : m₀.states = m.states) (hp : m₀.pending = m.pending) :
    Effect m op
      (m₀.beginPending q.groupId q.preCommitEpoch q.newEpoch q.pending q.pendingRef q.kind).1 := by
  have hst : (m₀.state q.groupId).getD (.stable q.preCommitEpoch) = m.stagingState q := by
    simp only [stagingState, state, hs]
  unfold beginPending
  simp only [hst]
  cases hcase : (m.stagingState q).beginPending q.newEpoch q.pending q.pendingRef with
  | error t =>
    -- Staging is refused, so the group was not stable.
    refine .unchanged hs hp fun q' hq' e he => ?_
    obtain rfl : q = q' := Option.some.inj (hop.symm.trans hq')
    rw [he] at hcase
    cases hcase
  | ok new =>
    obtain ⟨⟨e, he⟩, rfl⟩ := EpochState.beginPending_eq_ok.mp hcase
    exact .began q hop he (by simp only [hs]) (by simp only [hp])

theorem setStable_effect (m : EpochManager) (g : GroupId) (e : EpochId) :
    Effect m (.setStable g e) (m.setStable g e) := by
  unfold setStable
  split
  · exact .unchanged rfl rfl (by simp [staged])
  · split
    · exact .unchanged rfl rfl (by simp [staged])
    · rename_i hterm hres
      refine .settled g e (.inl rfl) (fun s hs => ?_) rfl rfl
      simp only [isUnrecoverable, isDisbanded, isResolvingLocalPublish, hs, Option.any_some,
        Bool.or_eq_true, not_or, Bool.not_eq_true] at hterm hres
      exact ⟨hterm.2, hres⟩

theorem repairToStable_effect (m : EpochManager) (g : GroupId) (e : EpochId) :
    Effect m (.repairToStable g e) (m.repairToStable g e).1 := by
  cases hcase : ((m.state g).getD (EpochState.stable 0).toUnrecoverable).repairToStable e with
  | error t =>
    simp only [repairToStable, hcase]
    exact .unchanged rfl rfl (by simp [staged])
  | ok new =>
    simp only [repairToStable, hcase]
    -- Only a halted group is repaired, and it is neither disbanded nor in flight.
    obtain ⟨⟨e₀, he₀⟩, rfl⟩ := EpochState.repairToStable_eq_ok.mp hcase
    refine .settled g e (.inr rfl) (fun s hs => ?_) rfl rfl
    rw [hs, Option.getD_some] at he₀
    subst he₀
    exact ⟨rfl, rfl⟩

/-- **The step lemma.**  Every operation has one of the effects above. -/
theorem apply_effect (m : EpochManager) (op : EpochOp) : Effect m op (m.apply op) := by
  cases op with
  | nextPendingRef => exact .unchanged rfl rfl (by simp [EpochOp.staged])
  | beginPending q => exact beginPending_effect rfl rfl rfl
  | restorePending q => exact beginPending_effect rfl rfl rfl
  | confirmPublish r =>
    obtain ⟨pm, p, hin, heq⟩ | ⟨err, heq⟩ := m.confirmPublish_cases r
    · simp only [apply, heq]
      exact .resolved r pm p _ hin (.inl rfl)
    · simp only [apply, heq]
      exact .unchanged rfl rfl (by simp [EpochOp.staged])
  | rollbackPublish r =>
    obtain ⟨pm, p, hin, heq⟩ | ⟨err, heq⟩ := m.rollbackPublish_cases r
    · simp only [apply, heq]
      exact .resolved r pm p _ hin (.inr rfl)
    · simp only [apply, heq]
      exact .unchanged rfl rfl (by simp [EpochOp.staged])
  | setStable g e => exact m.setStable_effect g e
  | markUnrecoverable g => exact .halted g rfl rfl
  | restoreUnrecoverable g e => exact .haltRestored g e rfl rfl
  | repairToStable g e => exact m.repairToStable_effect g e
  | markDisbanded g e => exact .disbanded g e (.inl rfl) rfl rfl
  | restoreDisbanded g e => exact .disbanded g e (.inr rfl) rfl rfl
  | clearGroupState g => exact .cleared g rfl rfl
  | forgetGroup g => exact .forgotten g rfl rfl

/-! ### Only staging puts a group in flight -/

/-- `m'` records no publication and puts no group in flight that `m` did not. -/
structure Retires (m m' : EpochManager) : Prop where
  pending : ∀ (r : PendingStateRef) pm, m'.pending[r]? = some pm → m.pending[r]? = some pm
  state : ∀ g p, m'.state g = some (.pendingPublish p) → m.state g = some (.pendingPublish p)

variable {m m' : EpochManager} {g : GroupId}

theorem state_inFlight_of_insert {s : EpochState} (hs : m'.states = m.states.insert g s)
    (hne : ∀ p, s ≠ .pendingPublish p) :
    ∀ g' p, m'.state g' = some (.pendingPublish p) → m.state g' = some (.pendingPublish p) := by
  intro g' p h
  rw [state, m.state_insert g g' s hs] at h
  split at h
  · exact absurd (Option.some.inj h) (hne p)
  · exact h

theorem state_inFlight_of_erase (hs : m'.states = m.states.erase g) :
    ∀ g' p, m'.state g' = some (.pendingPublish p) → m.state g' = some (.pendingPublish p) := by
  intro g' p h
  rw [state, m.state_erase g g' hs] at h
  split at h
  · cases h
  · exact h

/-- An operation either stages a publication, or it retires some. -/
theorem Effect.began_or_retires (h : Effect m op m') :
    (∃ q e, op.staged = some q ∧ m.stagingState q = .stable e ∧
      m'.states = m.states.insert q.groupId
        (.pendingPublish ⟨q.newEpoch, q.pending, q.pendingRef⟩) ∧
      m'.pending = m.pending.insert q.pendingRef ⟨q.groupId, q.preCommitEpoch, q.kind⟩) ∨
    ((∀ q, op.staged = some q → ∀ e, m.stagingState q ≠ .stable e) ∧ Retires m m') := by
  cases h with
  | began q hop hst hs hp => exact .inl ⟨q, _, hop, hst, hs, hp⟩
  | unchanged hs hp hop =>
    exact .inr ⟨hop, by simp [hp], by simp [EpochManager.state, hs]⟩
  | resolved r pm p e hin hop =>
    refine .inr ⟨?_, fun r' pm' h => ?_, state_inFlight_of_insert rfl (by simp)⟩
    · rcases hop with rfl | rfl <;> simp [staged]
    · simp only [EpochManager.resolved, ExtTreeMap.getElem?_erase] at h
      split at h
      · cases h
      · exact h
  | settled g e hop hst hs hp =>
    refine .inr ⟨?_, by simp [hp], state_inFlight_of_insert hs (by simp)⟩
    rcases hop with rfl | rfl <;> simp [staged]
  | halted g hs hp | haltRestored g e hs hp =>
    exact .inr ⟨by simp [staged], by simp [hp], state_inFlight_of_insert hs (by simp)⟩
  | disbanded g e hop hs hp =>
    refine .inr ⟨?_, by simp [hp], state_inFlight_of_insert hs (by simp)⟩
    rcases hop with rfl | rfl <;> simp [staged]
  | cleared g hs hp =>
    exact .inr ⟨by simp [staged], by simp [hp], state_inFlight_of_erase hs⟩
  | forgotten g hs hp =>
    refine .inr ⟨by simp [staged], fun r pm h => ?_, state_inFlight_of_erase hs⟩
    rw [hp, ExtTreeMap.getElem?_filter] at h
    simp at h
    exact h.1

/-! ### Halts and terminal states -/

/-- A group is halted because it was before, or by one of the two halting
operations. -/
theorem Effect.unrecoverable_cases {e : EpochId} (h : Effect m op m')
    (hst : m'.state g = some (.unrecoverable e)) :
    m.state g = some (.unrecoverable e) ∨
      (op = .markUnrecoverable g ∧ e = ((m.state g).getD (.stable 0)).epoch) ∨
      op = .restoreUnrecoverable g e := by
  rw [state] at hst
  cases h with
  | unchanged hs hp hop => exact .inl (by rwa [hs] at hst)
  | began q hop hst' hs hp => grind [m.state_insert _ g _ hs]
  | resolved r pm p e hin hop => grind [m.state_insert _ g _ (m.resolved_states r pm e)]
  | settled g' e hop hst' hs hp => grind [m.state_insert _ g _ hs]
  | halted g' hs hp => grind [m.state_insert _ g _ hs]
  | haltRestored g' e hs hp => grind [m.state_insert _ g _ hs]
  | disbanded g' e hop hs hp => grind [m.state_insert _ g _ hs]
  | cleared g' hs hp => grind [m.state_erase _ g hs]
  | forgotten g' hs hp => grind [m.state_erase _ g hs]

/-- Every other operation leaves a disbanded group as it is. -/
theorem Effect.disbanded_kept {e : EpochId} (h : Effect m op m')
    (hst : m.state g = some (.disbanded e)) (hop : op.overridesDisband g = false) :
    m'.state g = some (.disbanded e) := by
  cases h with
  | unchanged hs hp hop => rwa [state, hs]
  | began q hop hst' hs hp => grind [m.state_insert _ g _ hs, stagingState, state]
  | resolved r pm p e hin hop =>
    grind [m.state_insert _ g _ (m.resolved_states r pm e), state, hin.2]
  | settled g' e hop hst' hs hp =>
    grind [m.state_insert _ g _ hs, EpochState.isDisbanded, state]
  | halted g' hs hp => grind [m.state_insert _ g _ hs, EpochOp.overridesDisband, state]
  | haltRestored g' e hs hp => grind [m.state_insert _ g _ hs, EpochOp.overridesDisband, state]
  | disbanded g' e hop hs hp => grind [m.state_insert _ g _ hs, EpochOp.overridesDisband, state]
  | cleared g' hs hp => grind [m.state_erase _ g hs, EpochOp.overridesDisband, state]
  | forgotten g' hs hp => grind [m.state_erase _ g hs, EpochOp.overridesDisband, state]

end EpochManager

end Mdk
