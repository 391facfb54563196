/-
The per-group commit lifecycle, `crates/traits/src/engine_state.rs`.

`EpochState` is the engine's own enumeration; each transition is a function
that either yields the next state or the `InvalidTransition` the source
returns, with the names and the reason text the source puts into it.

`EpochState.epoch` is the one accessor every transition reads the epoch
through.  It does not mean the same in every state: for `pendingPublish` it is
the epoch of the staged commit, which is not confirmed yet.
-/
import Mathlib

namespace Mdk

/-- `EpochId(u64)`. -/
abbrev EpochId := UInt64

/-- `GroupId(Vec<u8>)`. -/
abbrev GroupId := List UInt8

instance : LawfulBEq GroupId := inferInstance

/-- `StagedCommitHandle(Vec<u8>)`. -/
abbrev StagedCommitHandle := List UInt8

/-- `PendingStateRef(u64)`. -/
abbrev PendingStateRef := UInt64

/-- Data carried by `EpochState::PendingPublish`. -/
structure PendingPublish where
  epoch : EpochId
  pending : StagedCommitHandle
  pendingRef : PendingStateRef
deriving DecidableEq, Repr

/-- Per-group commit lifecycle. -/
inductive EpochState where
  | stable (epoch : EpochId)
  | pendingPublish (p : PendingPublish)
  | merging (epoch : EpochId)
  | recovering (lastStableEpoch : EpochId)
  | unrecoverable (lastStableEpoch : EpochId)
  | disbanded (epoch : EpochId)
deriving DecidableEq, Repr

/-- A transition attempted from a state that does not allow it. -/
structure InvalidTransition where
  fromState : String
  toState : String
  reason : String
deriving DecidableEq, Repr

namespace EpochState

/-- Current epoch this state reflects. -/
def epoch : EpochState → EpochId
  | .stable epoch => epoch
  | .pendingPublish p => p.epoch
  | .merging epoch => epoch
  | .recovering lastStableEpoch => lastStableEpoch
  | .unrecoverable lastStableEpoch => lastStableEpoch
  | .disbanded epoch => epoch

/-- Whether a publication this client staged is still being resolved. -/
def isResolvingLocalPublish : EpochState → Bool
  | .pendingPublish _ | .merging _ => true
  | _ => false

def isUnrecoverable : EpochState → Bool
  | .unrecoverable _ => true
  | _ => false

def isDisbanded : EpochState → Bool
  | .disbanded _ => true
  | _ => false

/-- Short name for logs and errors. -/
def name : EpochState → String
  | .stable _ => "Stable"
  | .pendingPublish _ => "PendingPublish"
  | .merging _ => "Merging"
  | .recovering _ => "Recovering"
  | .unrecoverable _ => "Unrecoverable"
  | .disbanded _ => "Disbanded"

/-! ### Transitions -/

variable (s : EpochState)

/-- `Stable → PendingPublish`. -/
def beginPending (newEpoch : EpochId) (pending : StagedCommitHandle) (pendingRef : PendingStateRef)
    : Except InvalidTransition EpochState :=
  match s with
  | .stable _ => .ok (.pendingPublish ⟨newEpoch, pending, pendingRef⟩)
  | other => .error ⟨other.name, "PendingPublish", "begin_pending requires Stable"⟩

/-- `PendingPublish → Merging`. -/
def confirmPublish : Except InvalidTransition EpochState :=
  match s with
  | .pendingPublish p => .ok (.merging p.epoch)
  | other => .error ⟨other.name, "Merging", "confirm_publish requires PendingPublish"⟩

/-- `PendingPublish → Stable` at the caller-supplied prior epoch. -/
def rollbackPending (priorEpoch : EpochId) : Except InvalidTransition EpochState :=
  match s with
  | .pendingPublish _ => .ok (.stable priorEpoch)
  | other => .error ⟨other.name, "Stable", "rollback_pending requires PendingPublish"⟩

/-- `Merging → Stable { epoch: next }`. -/
def mergeToStable (nextEpoch : EpochId) : Except InvalidTransition EpochState :=
  match s with
  | .merging _ => .ok (.stable nextEpoch)
  | other => .error ⟨other.name, "Stable", "merge_to_stable requires Merging"⟩

/-- `* → Recovering`.  Always legal.  The buffered messages are left out: every
caller modelled here passes none. -/
def detectFork : EpochState := .recovering s.epoch

/-- `* → Unrecoverable`.  Always legal. -/
def toUnrecoverable : EpochState := .unrecoverable s.epoch

/-- `Unrecoverable → Stable`. -/
def repairToStable (epoch : EpochId) : Except InvalidTransition EpochState :=
  match s with
  | .unrecoverable _ => .ok (.stable epoch)
  | other => .error ⟨other.name, "Stable", "repair_to_stable requires Unrecoverable"⟩

/-- `Recovering → Disbanded`. -/
def settleToDisbanded (epoch : EpochId) : Except InvalidTransition EpochState :=
  match s with
  | .recovering _ => .ok (.disbanded epoch)
  | other => .error ⟨other.name, "Disbanded", "disband terminalization requires Recovering"⟩

/-! ### What each transition needs -/

theorem beginPending_eq_ok {s s' : EpochState} {e : EpochId} {h : StagedCommitHandle}
    {r : PendingStateRef} :
    s.beginPending e h r = .ok s' ↔ (∃ e₀, s = .stable e₀) ∧ s' = .pendingPublish ⟨e, h, r⟩ := by
  cases s <;> simp [beginPending, eq_comm]

theorem repairToStable_eq_ok {s s' : EpochState} {e : EpochId} :
    s.repairToStable e = .ok s' ↔ (∃ e₀, s = .unrecoverable e₀) ∧ s' = .stable e := by
  cases s <;> simp [repairToStable, eq_comm]

@[simp] theorem settleToDisbanded_detectFork (e : EpochId) :
    s.detectFork.settleToDisbanded e = .ok (.disbanded e) := rfl

end EpochState

end Mdk
