/-
The engine's durable state as the publish paths use it.

One account stores, for every group, the Marmot record, the OpenMLS values, the
member capabilities, the retained snapshots and the state checkpoints; beside them
the message ledger, the maintenance evolutions, the queued outbound intents, the
own-commit intents, the disband requests and the frozen fanouts.  Every storage call
is one call of a program over the engine: it goes through or it fails, and a failing
call leaves everything as it was.

The OpenMLS values of a group are a parameter `G`.
-/
import Mdk.KeyedTable
import Mdk.OutboundFanout
import Mdk.EpochManager
import Mdk.StagedCommits
import Mdk.RewindGuard

namespace Mdk

open StoreProgram StoreProgram.Program
open Std (ExtTreeMap)

/-! ### Tables -/

/-- `MemberId(Vec<u8>)`. -/
abbrev MemberId := List UInt8

structure GroupCapabilities where
  extensions : Finset UInt16 := ∅
  proposals : Finset UInt16 := ∅
  appComponents : Finset UInt16 := ∅
deriving DecidableEq

/-- The Marmot record of a group. -/
structure Group where
  name : String
  description : String
  epoch : EpochId
  members : List Member
  requiredCapabilities : GroupCapabilities
  protocolProfile : ProtocolProfile
deriving DecidableEq

variable {G : Type}

/-- The canonical state of a group as a checkpoint holds it. -/
structure GroupStateCheckpoint (G : Type) where
  group : Group
  memberCaps : ExtTreeMap MemberId GroupCapabilities
  validatedTreeMarker : Option (List UInt8)
  openmlsValues : Option G
deriving DecidableEq

/-- A state-scoped snapshot, which also has the convergence policy. -/
structure GroupStateSnapshot (G : Type) where
  state : GroupStateCheckpoint G
  convergencePolicy : Option (List UInt8)
deriving DecidableEq

/-- Everything stored under one group id. -/
structure GroupRows (G : Type) where
  record : Option Group := none
  openmlsValues : Option G := none
  memberCaps : ExtTreeMap MemberId GroupCapabilities := ∅
  validatedTreeMarker : Option (List UInt8) := none
  convergencePolicy : Option (List UInt8) := none
  snapshots : ExtTreeMap String (GroupStateSnapshot G) := ∅
  checkpoints : ExtTreeMap String (EpochId × GroupStateCheckpoint G) := ∅
  disbandRequest : Option (Option EpochId) := none
  disbandCandidates : List String := []

inductive GroupEvolutionPhase where
  | preparing
  | prepared
  | attempting
  | confirmed
  | supersededByConvergence
deriving DecidableEq, Repr

structure DurableGroupEvolution where
  id : String
  groupId : GroupId
  phase : GroupEvolutionPhase
  signedMessageId : Option String
deriving DecidableEq, Repr

structure QueuedOutboundIntent where
  id : String
  groupId : GroupId
deriving DecidableEq, Repr

structure EngineStorage (G : Type) where
  groups : GroupId → GroupRows G
  messages : KeyedTable MessageRecord.id
  evolutions : KeyedTable DurableGroupEvolution.id
  queuedOutbound : KeyedTable QueuedOutboundIntent.id
  ownCommitIntents : List String
  fanouts : KeyedTable OutboundFanout.messageId

/-- The engine: its storage, and what it keeps in memory about publications. -/
structure Engine (G : Type) where
  storage : EngineStorage G
  epochManager : EpochManager
  pendingOriginCommits : ExtTreeMap PendingStateRef String
  queuedIntentByPending : ExtTreeMap PendingStateRef (GroupId × String)
  quarantinedGroups : List GroupId
  unhydratedGroups : List GroupId
  pendingConvergenceGroups : List GroupId

/-- A program of storage calls of the engine. -/
abbrev EngineProgram (G ε α : Type) := Program StorageError (Engine G) ε α

/-! ### Storage calls -/

def StorageError.notFound : StorageError := .other "NotFound"

def StorageError.alreadyExists : StorageError := .other "AlreadyExists"

namespace EngineStorage

/-- The rows of one group, changed. -/
def updateGroup (storage : EngineStorage G) (groupId : GroupId)
    (f : GroupRows G → GroupRows G) : EngineStorage G :=
  { storage with
    groups := Function.update storage.groups groupId (f (storage.groups groupId)) }

@[simp] theorem updateGroup_groups (storage : EngineStorage G) (groupId : GroupId)
    (f : GroupRows G → GroupRows G) :
    (storage.updateGroup groupId f).groups groupId = f (storage.groups groupId) := by
  simp only [updateGroup, Function.update_self]

theorem updateGroup_eq_self {storage : EngineStorage G} {groupId : GroupId}
    {f : GroupRows G → GroupRows G} (h : f (storage.groups groupId) = storage.groups groupId) :
    storage.updateGroup groupId f = storage := by
  simp only [updateGroup, h, Function.update_eq_self]

/-- A call that reads. -/
def query {α : Type} (f : EngineStorage G → Except StorageError α) :
    EngineProgram G StorageError α :=
  call fun engine => (f engine.storage, engine)

/-- A call that writes. -/
def write (f : EngineStorage G → Except StorageError (EngineStorage G)) :
    EngineProgram G StorageError Unit :=
  call fun engine =>
    match f engine.storage with
    | .ok storage => (.ok (), { engine with storage := storage })
    | .error e => (.error e, engine)

variable (groupId : GroupId)

def getGroup : EngineProgram G StorageError Group :=
  query fun storage =>
    match (storage.groups groupId).record with
    | some group => .ok group
    | none => .error .notFound

def putGroup (group : Group) : EngineProgram G StorageError Unit :=
  write fun storage =>
    .ok (storage.updateGroup groupId fun rows => { rows with record := some group })

/-- `MlsGroup::load`. -/
def loadOpenmlsValues : EngineProgram G StorageError (Option G) :=
  query fun storage => .ok (storage.groups groupId).openmlsValues

/-- What OpenMLS writes when it changes a group. -/
def writeOpenmlsValues (values : G) : EngineProgram G StorageError Unit :=
  write fun storage =>
    .ok (storage.updateGroup groupId fun rows => { rows with openmlsValues := some values })

def saveMemberCapabilities (member : MemberId) (capabilities : GroupCapabilities) :
    EngineProgram G StorageError Unit :=
  write fun storage =>
    .ok (storage.updateGroup groupId fun rows =>
      { rows with memberCaps := rows.memberCaps.insert member capabilities })

def convergencePolicy : EngineProgram G StorageError (Option (List UInt8)) :=
  query fun storage => .ok (storage.groups groupId).convergencePolicy

/-! #### Messages -/

variable (id : String)

def getMessage : EngineProgram G StorageError MessageRecord :=
  query fun storage =>
    match storage.messages.get? id with
    | some record => .ok record
    | none => .error .notFound

def putMessage (record : MessageRecord) : EngineProgram G StorageError Unit :=
  write fun storage => .ok { storage with messages := storage.messages.upsert record }

def updateMessageState (state : MessageState) : EngineProgram G StorageError Unit :=
  write fun storage =>
    match storage.messages.get? id with
    | some record =>
      .ok { storage with messages := storage.messages.upsert { record with state := state } }
    | none => .error .notFound

def listMessages (atOrAfterEpoch : EpochId) : EngineProgram G StorageError (List MessageRecord) :=
  query fun storage =>
    .ok (storage.messages.rows.filter fun record =>
      record.groupId = groupId && atOrAfterEpoch ≤ record.epoch)

/-! #### Snapshots and checkpoints -/

/-- What a checkpoint of the group captures now. -/
def captureGroupState (rows : GroupRows G) : Except StorageError (GroupStateCheckpoint G) :=
  match rows.record with
  | some group => .ok ⟨group, rows.memberCaps, rows.validatedTreeMarker, rows.openmlsValues⟩
  | none => .error .notFound

def createGroupStateSnapshot (name : String) : EngineProgram G StorageError Unit :=
  write fun storage =>
    match captureGroupState (storage.groups groupId) with
    | .ok state => .ok (storage.updateGroup groupId fun rows =>
        { rows with snapshots := rows.snapshots.insert name ⟨state, rows.convergencePolicy⟩ })
    | .error e => .error e

def listGroupSnapshots : EngineProgram G StorageError (List String) :=
  query fun storage => .ok (storage.groups groupId).snapshots.keys

def releaseGroupSnapshot (name : String) : EngineProgram G StorageError Unit :=
  write fun storage =>
    if name ∈ (storage.groups groupId).snapshots then
      .ok (storage.updateGroup groupId fun rows =>
        { rows with snapshots := rows.snapshots.erase name })
    else .error (.snapshotMissing name)

/-- An id that is taken may only be written again with the same content. -/
def createGroupStateCheckpoint [DecidableEq G] (groupId : GroupId) (id : String)
    (resultingEpoch : EpochId) : EngineProgram G StorageError Unit :=
  write fun storage =>
    match captureGroupState (storage.groups groupId) with
    | .error e => .error e
    | .ok state =>
      match (storage.groups groupId).checkpoints[id]? with
      | some existing => if existing = (resultingEpoch, state) then .ok storage
          else .error .alreadyExists
      | none => .ok (storage.updateGroup groupId fun rows =>
          { rows with checkpoints := rows.checkpoints.insert id (resultingEpoch, state) })

/-- The checkpoints of a group, by resulting epoch and then by id. -/
def listGroupStateCheckpoints : EngineProgram G StorageError (List (String × EpochId)) :=
  query fun storage =>
    .ok (Comparison.sortBy (fun a b => (compare a.2 b.2).then (compare a.1 b.1))
      ((storage.groups groupId).checkpoints.toList.map fun entry => (entry.1, entry.2.1)))

def releaseGroupStateCheckpoint : EngineProgram G StorageError Unit :=
  write fun storage =>
    if id ∈ (storage.groups groupId).checkpoints then
      .ok (storage.updateGroup groupId fun rows =>
        { rows with checkpoints := rows.checkpoints.erase id })
    else .error (.snapshotMissing id)

/-! #### Maintenance, queues, disband state and fanouts -/

def listGroupEvolutions : EngineProgram G StorageError (List DurableGroupEvolution) :=
  query fun storage => .ok storage.evolutions.rows

def listGroupEvolutionsForGroup : EngineProgram G StorageError (List DurableGroupEvolution) :=
  query fun storage => .ok (storage.evolutions.rows.filter (·.groupId = groupId))

def putGroupEvolution (evolution : DurableGroupEvolution) : EngineProgram G StorageError Unit :=
  write fun storage => .ok { storage with evolutions := storage.evolutions.upsert evolution }

def deleteGroupEvolution : EngineProgram G StorageError Unit :=
  write fun storage => .ok { storage with evolutions := storage.evolutions.erase id }

def listQueuedOutboundIntents : EngineProgram G StorageError (List QueuedOutboundIntent) :=
  query fun storage => .ok (storage.queuedOutbound.rows.filter (·.groupId = groupId))

/-- Deleting a row that is not there is an error. -/
def deleteQueuedOutboundIntent : EngineProgram G StorageError Unit :=
  write fun storage =>
    match storage.queuedOutbound.get? id with
    | some _ => .ok { storage with queuedOutbound := storage.queuedOutbound.erase id }
    | none => .error .notFound

def deleteOwnCommitIntent : EngineProgram G StorageError Unit :=
  write fun storage =>
    .ok { storage with ownCommitIntents := storage.ownCommitIntents.filter (· ≠ id) }

def clearDisbandCandidates : EngineProgram G StorageError Unit :=
  write fun storage =>
    .ok (storage.updateGroup groupId fun rows => { rows with disbandCandidates := [] })

/-- The request's last prepared epoch, where there is a request. -/
def disbandRequest : EngineProgram G StorageError (Option (Option EpochId)) :=
  query fun storage => .ok (storage.groups groupId).disbandRequest

def putDisbandRequest (lastPreparedEpoch : Option EpochId) : EngineProgram G StorageError Unit :=
  write fun storage =>
    .ok (storage.updateGroup groupId fun rows =>
      { rows with disbandRequest := some lastPreparedEpoch })

/-- A fanout is only written over one it is a successor of. -/
def putOutboundFanout (fanout : OutboundFanout) : EngineProgram G StorageError Unit :=
  write fun storage =>
    match storage.fanouts.get? fanout.messageId with
    | none => .ok { storage with fanouts := storage.fanouts.upsert fanout }
    | some previous =>
      match fanout.validateSuccessorOf previous with
      | .ok () => .ok { storage with fanouts := storage.fanouts.upsert fanout }
      | .error _ =>
        .error (.other "outbound fanout update would alter or regress durable state")

def outboundFanout (messageId : String) : EngineProgram G StorageError (Option OutboundFanout) :=
  query fun storage => .ok (storage.fanouts.get? messageId)

def listOutboundFanouts : EngineProgram G StorageError (List OutboundFanout) :=
  query fun storage => .ok storage.fanouts.rows

def listOutboundFanoutsForGroup : EngineProgram G StorageError (List OutboundFanout) :=
  query fun storage => .ok (storage.fanouts.rows.filter (·.groupId = some groupId))

def deleteOutboundFanout (messageId : String) : EngineProgram G StorageError Unit :=
  write fun storage => .ok { storage with fanouts := storage.fanouts.erase messageId }

/-! ### Specifications of the two kinds of call -/

section Specs

variable {α : Type} {allow : Fate StorageError → Prop} {P K : Engine G → Prop}
  {E : StorageError → Engine G → Prop}

/-- A read leaves the engine alone. -/
theorem query_spec {f : EngineStorage G → Except StorageError α} {Q : α → Engine G → Prop}
    (hok : ∀ engine a, P engine → f engine.storage = .ok a → Q a engine)
    (herr : ∀ engine e, P engine → f engine.storage = .error e → E e engine)
    (hfails : ∀ engine e, P engine → allow (.fails e) → E e engine)
    (hkill : ∀ engine, P engine → allow .killed → K engine) :
    Spec allow P (query f) Q E K := by
  refine Spec.call ?_ ?_ hfails hkill
  · intro engine a engine' hP heq
    obtain ⟨hf, rfl⟩ := Prod.mk.inj heq
    exact hok engine a hP hf
  · intro engine e engine' hP heq
    obtain ⟨hf, rfl⟩ := Prod.mk.inj heq
    exact herr engine e hP hf

variable {f : EngineStorage G → Except StorageError (EngineStorage G)} {Q : Engine G → Prop}

/-- A write changes the storage or leaves the engine alone. -/
theorem write_spec
    (hok : ∀ engine storage, P engine → f engine.storage = .ok storage →
      Q { engine with storage := storage })
    (herr : ∀ engine e, P engine → f engine.storage = .error e → E e engine)
    (hfails : ∀ engine e, P engine → allow (.fails e) → E e engine)
    (hkill : ∀ engine, P engine → allow .killed → K engine) :
    Spec allow P (write f) (fun _ => Q) E K := by
  refine Spec.call ?_ ?_ hfails hkill
  · intro engine a engine' hP heq
    cases hf : f engine.storage with
    | ok storage =>
      rw [hf] at heq
      cases heq
      exact hok engine storage hP hf
    | error e =>
      rw [hf] at heq
      cases heq
  · intro engine e engine' hP heq
    cases hf : f engine.storage with
    | ok storage =>
      rw [hf] at heq
      cases heq
    | error e' =>
      rw [hf] at heq
      obtain ⟨he, rfl⟩ := Prod.mk.inj heq
      obtain rfl := Except.error.inj he
      exact herr engine e' hP hf

/-- A read, where the start is kept whenever it does not answer. -/
theorem query_ends {f : EngineStorage G → Except StorageError α} {Q : α → Engine G → Prop}
    (hok : ∀ engine a, P engine → f engine.storage = .ok a → Q a engine) :
    Spec allow P (query f) Q (fun _ => P) P :=
  query_spec hok (fun _ _ hP _ => hP) (fun _ _ hP _ => hP) fun _ hP _ => hP

theorem write_ends
    (hok : ∀ engine storage, P engine → f engine.storage = .ok storage →
      Q { engine with storage := storage }) : Spec allow P (write f) (fun _ => Q) (fun _ => P) P :=
  write_spec hok (fun _ _ hP _ => hP) (fun _ _ hP _ => hP) fun _ hP _ => hP

theorem query_returns {f : EngineStorage G → Except StorageError α} {Q : α → Engine G → Prop}
    (h : ∀ engine a, P engine → f engine.storage = .ok a → Q a engine) :
    Returns P (query f) Q :=
  query_spec h (fun _ _ _ _ => trivial) (fun _ _ _ _ => trivial) fun _ _ _ => trivial

theorem write_returns
    (h : ∀ engine storage, P engine → f engine.storage = .ok storage →
      Q { engine with storage := storage }) : Returns P (write f) fun _ => Q :=
  write_spec h (fun _ _ _ _ => trivial) (fun _ _ _ _ => trivial) fun _ _ _ => trivial

theorem query_returned {f : EngineStorage G → Except StorageError α} {engine : Engine G} {a : α}
    (h : f engine.storage = .ok a) : query f [] engine = ⟨.returned a, engine, []⟩ := by
  simp only [query, call, h]

theorem write_returned {engine : Engine G} {storage : EngineStorage G}
    (h : f engine.storage = .ok storage) :
    write f [] engine = ⟨.returned (), { engine with storage := storage }, []⟩ := by
  simp only [write, call, h]

end Specs

end EngineStorage

/-! ### Programs of storage calls -/

/-- No fanout is stored but those that were, and `fanout`. -/
def FanoutFrame (fanout : Option OutboundFanout) (engine engine' : Engine G) : Prop :=
  ∀ id row, engine'.storage.fanouts.get? id = some row →
    engine.storage.fanouts.get? id = some row ∨ fanout = some row

/-- The memory of the engine is as before, too. -/
structure PublishFrame (fanout : Option OutboundFanout) (engine engine' : Engine G) : Prop where
  memory : engine' = { engine with storage := engine'.storage }
  fanouts : FanoutFrame fanout engine engine'

instance (fanout : Option OutboundFanout) :
    IsPreorder (Engine G) (FanoutFrame fanout) where
  refl _ _ _ h := .inl h
  trans _ _ _ h h' id row hrow := (h' id row hrow).elim (h id row) .inr

instance (fanout : Option OutboundFanout) :
    IsPreorder (Engine G) (PublishFrame fanout) where
  refl _ := ⟨rfl, refl_of _ _⟩
  trans _ _ _ h h' := ⟨by rw [h'.memory, h.memory], trans_of _ h.fanouts h'.fanouts⟩

/-- The program makes storage calls and nothing else: it lets every failure through, leaves
the memory of the engine alone and stores no other fanout. -/
structure StorageCalls {ε α : Type} (fanout : Option OutboundFanout) (p : EngineProgram G ε α) :
    Prop where
  faithful : Faithful p
  moves : Moves (PublishFrame fanout) p

namespace StorageCalls

variable {ε ε' α β : Type} {fanout : Option OutboundFanout}

theorem pure (a : α) : StorageCalls fanout (Pure.pure a : EngineProgram G ε α) :=
  ⟨Faithful.pure a, Moves.pure a⟩

theorem raise (e : ε) : StorageCalls fanout (Program.raise e : EngineProgram G ε α) :=
  ⟨Faithful.raise e, Moves.raise e⟩

theorem ofExcept (r : Except ε α) :
    StorageCalls fanout (Program.ofExcept r : EngineProgram G ε α) :=
  ⟨Faithful.ofExcept r, Moves.ofExcept r⟩

theorem bind {p : EngineProgram G ε α} {f : α → EngineProgram G ε β} (hp : StorageCalls fanout p)
    (hf : ∀ a, StorageCalls fanout (f a)) : StorageCalls fanout (p >>= f) :=
  ⟨hp.faithful.bind fun a => (hf a).faithful, hp.moves.bind fun a => (hf a).moves⟩

theorem mapError {p : EngineProgram G ε' α} {g : ε' → ε} (hp : StorageCalls fanout p) :
    StorageCalls fanout (Program.mapError g p) :=
  ⟨hp.faithful.mapError, hp.moves.mapError⟩

theorem forM {f : β → EngineProgram G ε PUnit} (h : ∀ x, StorageCalls fanout (f x))
    (l : List β) : StorageCalls fanout (l.forM f) := by
  induction l with
  | nil => exact pure _
  | cons x xs ih => exact (h x).bind fun _ => ih

theorem ite {c : Prop} [Decidable c] {p q : EngineProgram G ε α} (hp : StorageCalls fanout p)
    (hq : StorageCalls fanout q) : StorageCalls fanout (if c then p else q) := by
  split
  · exact hp
  · exact hq

theorem query (f : EngineStorage G → Except StorageError α) :
    StorageCalls fanout (EngineStorage.query f) :=
  ⟨Faithful.call _, Moves.call fun engine => refl_of _ engine⟩

variable {f : EngineStorage G → Except StorageError (EngineStorage G)}

/-- A write that stores no fanout but the one that is named. -/
theorem write
    (h : ∀ storage storage', f storage = .ok storage' → ∀ id row,
      storage'.fanouts.get? id = some row →
        storage.fanouts.get? id = some row ∨ fanout = some row) :
    StorageCalls fanout (EngineStorage.write f) := by
  refine ⟨Faithful.call _, Moves.call fun engine => ?_⟩
  cases hf : f engine.storage with
  | ok storage => exact ⟨rfl, h _ _ hf⟩
  | error e => exact refl_of _ engine

/-- A write to another table. -/
theorem writeElsewhere
    (h : ∀ storage storage', f storage = .ok storage' → storage'.fanouts = storage.fanouts) :
    StorageCalls fanout (EngineStorage.write f) :=
  write fun storage storage' hf _ _ hrow => .inl (h storage storage' hf ▸ hrow)

/-! #### The writes of the publish paths -/

variable (groupId : GroupId)

theorem putGroup (group : Group) :
    StorageCalls fanout (EngineStorage.putGroup groupId group : EngineProgram G _ _) :=
  writeElsewhere fun _ _ h => by cases h; rfl

theorem writeOpenmlsValues (values : G) :
    StorageCalls fanout (EngineStorage.writeOpenmlsValues groupId values) :=
  writeElsewhere fun _ _ h => by cases h; rfl

theorem saveMemberCapabilities (member : MemberId) (capabilities : GroupCapabilities) :
    StorageCalls fanout
      (EngineStorage.saveMemberCapabilities groupId member capabilities : EngineProgram G _ _) :=
  writeElsewhere fun _ _ h => by cases h; rfl

theorem putMessage (record : MessageRecord) :
    StorageCalls fanout (EngineStorage.putMessage record : EngineProgram G _ _) :=
  writeElsewhere fun _ _ h => by cases h; rfl

variable (id : String)

theorem updateMessageState (state : MessageState) :
    StorageCalls fanout (EngineStorage.updateMessageState id state : EngineProgram G _ _) := by
  refine writeElsewhere fun _ _ h => ?_
  split at h <;> cases h
  rfl

theorem createGroupStateCheckpoint [DecidableEq G] (groupId : GroupId) (id : String)
    (resultingEpoch : EpochId) :
    StorageCalls fanout (EngineStorage.createGroupStateCheckpoint groupId id resultingEpoch :
      EngineProgram G _ _) := by
  refine writeElsewhere fun _ _ h => ?_
  split at h
  · cases h
  · split at h
    · split at h <;> cases h
      rfl
    · cases h
      rfl

theorem putGroupEvolution (evolution : DurableGroupEvolution) :
    StorageCalls fanout (EngineStorage.putGroupEvolution evolution : EngineProgram G _ _) :=
  writeElsewhere fun _ _ h => by cases h; rfl

theorem deleteGroupEvolution :
    StorageCalls fanout (EngineStorage.deleteGroupEvolution id : EngineProgram G _ _) :=
  writeElsewhere fun _ _ h => by cases h; rfl

theorem deleteQueuedOutboundIntent :
    StorageCalls fanout (EngineStorage.deleteQueuedOutboundIntent id : EngineProgram G _ _) := by
  refine writeElsewhere fun _ _ h => ?_
  split at h <;> cases h
  rfl

theorem deleteOwnCommitIntent :
    StorageCalls fanout (EngineStorage.deleteOwnCommitIntent id : EngineProgram G _ _) :=
  writeElsewhere fun _ _ h => by cases h; rfl

theorem clearDisbandCandidates :
    StorageCalls fanout (EngineStorage.clearDisbandCandidates groupId : EngineProgram G _ _) :=
  writeElsewhere fun _ _ h => by cases h; rfl

theorem putDisbandRequest (lastPreparedEpoch : Option EpochId) :
    StorageCalls fanout
      (EngineStorage.putDisbandRequest groupId lastPreparedEpoch : EngineProgram G _ _) :=
  writeElsewhere fun _ _ h => by cases h; rfl

theorem putOutboundFanout (fanout : OutboundFanout) :
    StorageCalls (some fanout)
      (EngineStorage.putOutboundFanout fanout : EngineProgram G _ _) := by
  refine write fun storage storage' h id row hrow => ?_
  have hput : storage' = { storage with fanouts := storage.fanouts.upsert fanout } := by
    split at h
    · exact (Except.ok.inj h).symm
    · split at h <;> cases h
      rfl
  subst hput
  rw [KeyedTable.get?_upsert] at hrow
  split at hrow
  · exact .inr hrow
  · exact .inl hrow

theorem deleteOutboundFanout (messageId : String) :
    StorageCalls fanout
      (EngineStorage.deleteOutboundFanout messageId : EngineProgram G _ _) := by
  refine write fun storage storage' h id row hrow => .inl ?_
  rw [← Except.ok.inj h, KeyedTable.get?_erase] at hrow
  split at hrow
  · cases hrow
  · exact hrow

end StorageCalls

end Mdk
