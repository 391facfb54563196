/-
Rewind guards and the recovery of an interrupted rewind: the model.

Whoever reads historical group state rewinds the live group behind a guard: the
live image is snapshotted under a name that tells the site, the live state is
rewound and replayed on, and at the end the image is restored and its snapshot
released.  Killing the process runs none of the ending, so the next open
classifies the snapshots that survived and restores the outermost one.

* `GroupStorage` is the live group with its named snapshots, and its calls are
  programs of one store call each;
* `guarded` is a guard around a body, `Window` an outermost guard window with what
  it does inside;
* `recoverInterruptedRewindGuard` is the recovery.
-/
import Mdk.StoreProgram
import Mdk.Replay

namespace Mdk

open StoreProgram StoreProgram.Program

/-! ### Group storage -/

/-- The live rows of a group: the canonical state (group record, member
capabilities, convergence policy, validated-tree marker, OpenMLS values), the
message ledger and the outbound queue. -/
structure GroupImage (S M Q : Type) where
  state : S
  messages : M
  queuedOutbound : Q
deriving DecidableEq

/-- A captured image.  A state-scoped snapshot has no ledger and no queue. -/
structure Snapshot (S M Q : Type) where
  state : S
  messages : Option M
  queuedOutbound : Option Q
deriving DecidableEq

/-- What a snapshot captures, and what a rollback rewrites. -/
inductive SnapshotScope where
  | full
  | groupState
deriving DecidableEq, Repr

structure GroupStorage (S M Q : Type) where
  live : GroupImage S M Q
  snapshots : Std.ExtTreeMap String (Snapshot S M Q)

variable {S M Q : Type}

def captureSnapshot (live : GroupImage S M Q) : SnapshotScope → Snapshot S M Q
  | .full => ⟨live.state, some live.messages, some live.queuedOutbound⟩
  | .groupState => ⟨live.state, none, none⟩

/-- A full restore leaves the ledger and the queue alone where the snapshot never
captured them. -/
def restoreSnapshot (live : GroupImage S M Q) (snapshot : Snapshot S M Q) :
    SnapshotScope → GroupImage S M Q
  | .full => ⟨snapshot.state, snapshot.messages.getD live.messages,
      snapshot.queuedOutbound.getD live.queuedOutbound⟩
  | .groupState => { live with state := snapshot.state }

/-- A program of storage calls on one group. -/
abbrev SnapshotProgram (S M Q ε α : Type) := Program StorageError (GroupStorage S M Q) ε α

variable (name : String)

def createGroupStateSnapshot : SnapshotProgram S M Q StorageError Unit :=
  call fun s =>
    (.ok (), { s with snapshots := s.snapshots.insert name (captureSnapshot s.live .groupState) })

def rollbackWithScope (scope : SnapshotScope) (name : String) :
    SnapshotProgram S M Q StorageError Unit :=
  call fun s =>
    match s.snapshots[name]? with
    | none => (.error (.snapshotMissing name), s)
    | some snapshot => (.ok (), { s with live := restoreSnapshot s.live snapshot scope })

def rollbackGroupToSnapshot : SnapshotProgram S M Q StorageError Unit :=
  rollbackWithScope .full name

def rollbackGroupStateToSnapshot : SnapshotProgram S M Q StorageError Unit :=
  rollbackWithScope .groupState name

def releaseGroupSnapshot : SnapshotProgram S M Q StorageError Unit :=
  call fun s =>
    if name ∈ s.snapshots then (.ok (), { s with snapshots := s.snapshots.erase name })
    else (.error (.snapshotMissing name), s)

def listGroupSnapshots : SnapshotProgram S M Q StorageError (List String) :=
  call fun s => (.ok s.snapshots.keys, s)

/-- A write to the canonical state, as processing a message makes. -/
def writeGroupState (f : S → S) : SnapshotProgram S M Q StorageError Unit :=
  call fun s => (.ok (), { s with live := { s.live with state := f s.live.state } })

/-! ### Rewind sites -/

inductive RewindSite where
  | pastPeelContext
  | retentionSource
  | moderationSource
  | hydrateSelfRemove
  | replay
  | retainedAnchorPass
  | candidateBranchSweep
deriving DecidableEq, Repr

namespace RewindSite

def all : List RewindSite :=
  [.pastPeelContext, .retentionSource, .moderationSource, .hydrateSelfRemove, .replay,
    .retainedAnchorPass, .candidateBranchSweep]

/-- The durable start of the site's snapshot names. -/
def namePrefix : RewindSite → String
  | .pastPeelContext => "peel-restore-"
  | .retentionSource => "retention-restore-"
  | .moderationSource => "moderation-source-restore-"
  | .hydrateSelfRemove => "hydrate-selfremove-probe-"
  | .replay => "openmls-probe-"
  | .retainedAnchorPass => "openmls-retained-probe-"
  | .candidateBranchSweep => "openmls-branch-probe-"

def classify (name : String) : Option RewindSite :=
  all.find? fun site => site.namePrefix.toList.isPrefixOf name.toList

def mayNestInsideAnotherGuard (site : RewindSite) : Bool := site == .replay

/-- No start is the start of another, so a guard's name always tells its site. -/
@[simp] theorem classify_append (site : RewindSite) (suffix : String) :
    classify (site.namePrefix ++ suffix) = some site := by
  cases site <;> simp [classify, all, namePrefix, List.isPrefixOf]

end RewindSite

/-! ### Guards and windows -/

/-- How a guard is given up: by an explicit commit, or by the drop that an early
return or a panic runs. -/
inductive GuardClose where
  | commit
  | drop
deriving DecidableEq, Repr

namespace SnapshotRollbackGuard

def createGroupState (site : RewindSite) (suffix : String) :
    SnapshotProgram S M Q StorageError String := do
  let name := site.namePrefix ++ suffix
  createGroupStateSnapshot name
  pure name

def commit (name : String) : SnapshotProgram S M Q StorageError Unit := do
  rollbackGroupStateToSnapshot name
  match ← attempt (releaseGroupSnapshot name) with
  | .ok () => pure ()
  | .error (.snapshotMissing _) => pure ()
  | .error e => raise e

/-- Best effort: neither error is looked at. -/
def drop (name : String) : SnapshotProgram S M Q StorageError Unit := do
  let _ ← attempt (rollbackGroupStateToSnapshot name)
  let _ ← attempt (releaseGroupSnapshot name)

/-- A commit that fails leaves the guard armed, so the drop follows it. -/
def close (name : String) : GuardClose → SnapshotProgram S M Q StorageError Unit
  | .commit => do
    match ← attempt (commit name) with
    | .ok () => pure ()
    | .error e => do
      drop name
      raise e
  | .drop => drop name

end SnapshotRollbackGuard

/-- A replay window opened inside another site's: a candidate path is replayed on
the rewound state, inside one storage transaction or outside of any. -/
structure NestedReplay (S : Type) where
  suffix : String
  transactional : Bool
  writes : List (S → S)
  close : GuardClose

/-- What a window does with the live state. -/
inductive WindowStep (S : Type) where
  | rewind (anchor : String)
  | write (f : S → S)
  | replay (probe : NestedReplay S)

def WindowStep.isReplay : WindowStep S → Bool
  | .replay _ => true
  | _ => false

/-- An outermost guard window.  A replay window opens no other window inside it. -/
structure Window (S : Type) where
  site : RewindSite
  suffix : String
  steps : List (WindowStep S)
  close : GuardClose
  replay_is_innermost : site.mayNestInsideAnotherGuard = true →
    ∀ step ∈ steps, step.isReplay = false

/-- Open a guard, run the body, give the guard up, hand the body's result on. -/
def guarded (site : RewindSite) (suffix : String) (how : GuardClose)
    (body : SnapshotProgram S M Q StorageError Unit) : SnapshotProgram S M Q StorageError Unit := do
  let name ← SnapshotRollbackGuard.createGroupState site suffix
  let result ← attempt body
  SnapshotRollbackGuard.close name how
  match result with
  | .ok () => pure ()
  | .error e => raise e

def NestedReplay.program (probe : NestedReplay S) : SnapshotProgram S M Q StorageError Unit :=
  let body := guarded .replay probe.suffix probe.close (probe.writes.forM writeGroupState)
  if probe.transactional then transaction id body else body

def WindowStep.program : WindowStep S → SnapshotProgram S M Q StorageError Unit
  | .rewind anchor => rollbackGroupStateToSnapshot anchor
  | .write f => writeGroupState f
  | .replay probe => probe.program

def Window.program (w : Window S) : SnapshotProgram S M Q StorageError Unit :=
  guarded w.site w.suffix w.close (w.steps.forM WindowStep.program)

/-- The convergence pass from a retained anchor: rewind, replay candidates, commit.
On a missing anchor the rewind is all that is left out. -/
def Window.retainedAnchorPass (suffix anchor : String) (probes : List (NestedReplay S)) :
    Window S where
  site := .retainedAnchorPass
  suffix := suffix
  steps := .rewind anchor :: probes.map .replay
  close := .commit
  replay_is_innermost h := absurd h (by decide)

/-! ### Recovery -/

def StorageError.debugText : StorageError → String
  | .snapshotMissing name => "SnapshotMissing(" ++ name.quote ++ ")"
  | .other text => text

/-- The guard snapshots of a site set, in the order they are listed. -/
def guardSnapshots (names : List String) (nested : Bool) : List (RewindSite × String) :=
  names.filterMap fun name =>
    match RewindSite.classify name with
    | some site => if site.mayNestInsideAnotherGuard == nested then some (site, name) else none
    | none => none

def rollbackAndReleaseGroupSnapshot :
    SnapshotProgram S M Q OpenMlsProjectionError Unit := do
  mapError (fun e => .snapshot e.debugText) (rollbackGroupToSnapshot name)
  mapError (fun e => .snapshot e.debugText) (releaseGroupSnapshot name)

/-- Release the nested snapshots, then restore the image of `restore`. -/
def restoreInterrupted (nested : List (RewindSite × String)) (restore : String) :
    SnapshotProgram S M Q OpenMlsProjectionError Unit := do
  (nested.filter fun entry => entry.2 != restore).forM fun entry =>
    mapError (fun e => .snapshot e.debugText) (releaseGroupSnapshot entry.2)
  rollbackAndReleaseGroupSnapshot restore

def recoverInterruptedRewindGuard : SnapshotProgram S M Q OpenMlsProjectionError Unit := do
  let names ← mapError (fun e => .storage e.debugText) listGroupSnapshots
  match guardSnapshots names false, guardSnapshots names true with
  | [], [] => pure ()
  | [(_, restore)], nested => restoreInterrupted nested restore
  | [], [(site, restore)] => restoreInterrupted [(site, restore)] restore
  | _, _ => raise (.snapshot "multiple interrupted rewind guards")

/-! ### Specifications of the storage calls -/

/-- No storage call fails; the process may still die. -/
def Faultless (f : Fate StorageError) : Prop := ∀ e, f ≠ .fails e

section Calls

variable {ε : Type} {P R K : GroupStorage S M Q → Prop}
  {E : StorageError → GroupStorage S M Q → Prop}

theorem createGroupStateSnapshot_spec (name : String)
    (hR : ∀ s, P s → R { s with
      snapshots := s.snapshots.insert name (captureSnapshot s.live .groupState) })
    (hK : ∀ s, P s → K s) :
    Spec Faultless P (createGroupStateSnapshot name) (fun _ => R) E K := by
  refine Spec.call ?_ ?_ (fun s e _ hf => absurd rfl (hf e)) fun s hs _ => hK s hs
  · intro s a s' hs heq
    cases heq
    exact hR s hs
  · intro s e s' _ heq
    cases heq

theorem rollbackWithScope_spec (scope : SnapshotScope) (name : String)
    (hR : ∀ s snapshot, P s → s.snapshots[name]? = some snapshot →
      R { s with live := restoreSnapshot s.live snapshot scope })
    (hE : ∀ s e, P s → s.snapshots[name]? = none → E e s) (hK : ∀ s, P s → K s) :
    Spec Faultless P (rollbackWithScope scope name) (fun _ => R) E K := by
  refine Spec.call ?_ ?_ (fun s e _ hf => absurd rfl (hf e)) fun s hs _ => hK s hs
  · intro s a s' hs heq
    cases hname : s.snapshots[name]? with
    | none => simp [hname] at heq
    | some snapshot =>
      simp only [hname, Prod.mk.injEq, true_and] at heq
      exact heq ▸ hR s snapshot hs hname
  · intro s e s' hs heq
    cases hname : s.snapshots[name]? with
    | none =>
      simp only [hname, Prod.mk.injEq] at heq
      exact heq.2 ▸ hE s e hs hname
    | some snapshot => simp [hname] at heq

theorem releaseGroupSnapshot_spec (name : String) (hname : ∀ s, P s → name ∈ s.snapshots)
    (hR : ∀ s, P s → R { s with snapshots := s.snapshots.erase name }) (hK : ∀ s, P s → K s) :
    Spec Faultless P (releaseGroupSnapshot name) (fun _ => R) E K := by
  refine Spec.call ?_ ?_ (fun s e _ hf => absurd rfl (hf e)) fun s hs _ => hK s hs
  · intro s a s' hs heq
    simp only [hname s hs, if_true, Prod.mk.injEq, true_and] at heq
    exact heq ▸ hR s hs
  · intro s e s' hs heq
    simp [hname s hs] at heq

theorem writeGroupState_spec (f : S → S)
    (hR : ∀ s, P s → R { s with live := { s.live with state := f s.live.state } })
    (hK : ∀ s, P s → K s) : Spec Faultless P (writeGroupState f) (fun _ => R) E K := by
  refine Spec.call ?_ ?_ (fun s e _ hf => absurd rfl (hf e)) fun s hs _ => hK s hs
  · intro s a s' hs heq
    cases heq
    exact hR s hs
  · intro s e s' _ heq
    cases heq

/-- Either way of giving a guard up rolls back to its snapshot and releases it. -/
theorem close_spec (name : String) (how : GuardClose) {T : GroupStorage S M Q → Prop}
    (hname : ∀ s, P s → name ∈ s.snapshots) (hkept : ∀ s, R s → name ∈ s.snapshots)
    (hR : ∀ s snapshot, P s → s.snapshots[name]? = some snapshot →
      R { s with live := restoreSnapshot s.live snapshot .groupState })
    (hT : ∀ s, R s → T { s with snapshots := s.snapshots.erase name })
    (hPK : ∀ s, P s → K s) (hRK : ∀ s, R s → K s) :
    Spec Faultless P (SnapshotRollbackGuard.close name how) (fun _ => T) E K := by
  have hpresent : ∀ s, P s → s.snapshots[name]? ≠ none := by
    intro s hs hnone
    simp [hname s hs] at hnone
  have hrollback : ∀ {E : StorageError → GroupStorage S M Q → Prop},
      Spec Faultless P (rollbackGroupStateToSnapshot name) (fun _ => R) E K :=
    rollbackWithScope_spec _ _ hR (fun s _ hs hnone => absurd hnone (hpresent s hs)) hPK
  have hrelease : ∀ {E : StorageError → GroupStorage S M Q → Prop},
      Spec Faultless R (releaseGroupSnapshot name) (fun _ => T) E K :=
    releaseGroupSnapshot_spec _ hkept hT hRK
  -- Neither call can answer with an error here, so only the `ok` branches are run.
  have hcommit : Spec Faultless P (SnapshotRollbackGuard.commit name) (fun _ => T)
      (fun _ _ => False) K :=
    Spec.bind hrollback fun _ => Spec.bind_attempt_ok hrelease fun _ => Spec.pure _ fun _ hs => hs
  cases how with
  | commit => exact Spec.bind_attempt_ok hcommit fun _ => Spec.pure _ fun _ hs => hs
  | drop =>
    exact Spec.bind_attempt_ok hrollback fun _ =>
      Spec.bind_attempt_ok hrelease fun _ => Spec.pure _ fun _ hs => hs

/-- A guard around a body that keeps what the guard needs. -/
theorem guarded_spec (site : RewindSite) (suffix : String) (how : GuardClose)
    {body : SnapshotProgram S M Q StorageError Unit} {H T : GroupStorage S M Q → Prop}
    (hopen : ∀ s, P s → H { s with
      snapshots := s.snapshots.insert (site.namePrefix ++ suffix)
        (captureSnapshot s.live .groupState) })
    (hbody : Spec Faultless H body (fun _ => H) (fun _ => H) K)
    (hclose : Spec Faultless H (SnapshotRollbackGuard.close (site.namePrefix ++ suffix) how)
      (fun _ => T) (fun _ => T) K)
    (hK : ∀ s, P s → K s) :
    Spec Faultless P (guarded site suffix how body) (fun _ => T) (fun _ => T) K := by
  refine Spec.bind (R := fun name s => name = site.namePrefix ++ suffix ∧ H s) ?_ fun name => ?_
  · exact Spec.bind (createGroupStateSnapshot_spec _ hopen hK) fun _ =>
      Spec.pure _ fun s hs => ⟨rfl, hs⟩
  · refine Spec.at fun s hs => ?_
    obtain ⟨rfl, hs⟩ := hs
    refine Spec.pre ?_ (P := H) fun _ h => h ▸ hs
    refine Spec.bind (R := fun _ => H) (Spec.attempt hbody) fun result => ?_
    refine Spec.bind hclose fun _ => ?_
    cases result with
    | ok u => exact Spec.pure _ fun _ hs => hs
    | error e => exact Spec.raise _ fun _ hs => hs

end Calls

end Mdk
