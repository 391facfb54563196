/-
Accounting of deferred peels, `crates/cgka-engine/src/message_processor/mod.rs`.

A message that cannot be opened yet is retained, and what is retained is bounded:
rows and bytes for each group, and bytes for the account.  The account counts the
groups a sweep will enter, so a group that is quarantined takes its bytes out of
the total and brings them back when the quarantine is lifted.
-/
import Mdk.KeyedTable
import Mdk.Replay
import Mdk.AgentTextStream

namespace Mdk

namespace DeferredPeel

/-! ### The state -/

/-- `usize::saturating_add`. -/
def saturatingAdd (a b : ℕ) : ℕ := min (a + b) usizeMax

/-- A retained row: its id and the length of its payload. -/
structure DeferredMessageMetadata where
  id : MessageId
  payloadLen : ℕ
deriving DecidableEq, Repr

abbrev PayloadBytesById := KeyedTable DeferredMessageMetadata.id

/-- The state of one group, with the id it is filed under. -/
structure DeferredPeelGroupState where
  groupId : GroupId
  deferredRows : ℕ
  deferredBytes : ℕ
  deferredPayloadBytesById : PayloadBytesById
  capRejectionAudited : Bool
deriving DecidableEq

namespace DeferredPeelGroupState

def new (groupId : GroupId) : DeferredPeelGroupState := ⟨groupId, 0, 0, KeyedTable.empty, false⟩

variable (state : DeferredPeelGroupState)

def hasCapacity (incomingRows incomingBytes rowLimit byteLimit : ℕ) : Bool :=
  (incomingRows == 0 || decide (saturatingAdd state.deferredRows incomingRows ≤ rowLimit)) &&
    (incomingBytes == 0 || decide (saturatingAdd state.deferredBytes incomingBytes ≤ byteLimit))

/-- The bytes a row is retained with. -/
def retained (id : MessageId) : Option ℕ :=
  (state.deferredPayloadBytesById.get? id).map DeferredMessageMetadata.payloadLen

/-- The state with the row, and the bytes the row had before. -/
def noteRowPersisted (id : MessageId) (payloadBytes : ℕ) : DeferredPeelGroupState × Option ℕ :=
  let byId := state.deferredPayloadBytesById.upsert ⟨id, payloadBytes⟩
  match state.retained id with
  | some previous =>
    ({ state with
        deferredPayloadBytesById := byId
        deferredBytes := saturatingAdd (state.deferredBytes - previous) payloadBytes },
      some previous)
  | none =>
    ({ state with
        deferredPayloadBytesById := byId
        deferredRows := saturatingAdd state.deferredRows 1
        deferredBytes := saturatingAdd state.deferredBytes payloadBytes },
      none)

/-- The state of a group whose rows were listed. -/
def refreshed (records : PayloadBytesById) : DeferredPeelGroupState :=
  { state with
    deferredRows := records.rows.length
    deferredBytes := records.rows.foldl (fun sum record => saturatingAdd sum record.payloadLen) 0
    deferredPayloadBytesById := records }

end DeferredPeelGroupState

structure DeferredPeelAccountState where
  bytes : ℕ
  counted : Bool
deriving DecidableEq, Repr

def DeferredPeelAccountState.reconcileGroupBytes (account : DeferredPeelAccountState)
    (previousBytes currentBytes : ℕ) : DeferredPeelAccountState :=
  if account.counted then
    { account with bytes := saturatingAdd (account.bytes - previousBytes) currentBytes }
  else account

inductive GroupHydrationQuarantineReason where
  | openMlsLoadFailed
  | openMlsGroupMissing
  | memberValidationFailed
  | groupRecordLoadFailed
  | pendingCommitRecoveryFailed
deriving DecidableEq, Repr

/-- What the accounting reads and writes of the engine. -/
structure Engine where
  deferredPeel : KeyedTable DeferredPeelGroupState.groupId
  deferredPeelAccount : DeferredPeelAccountState
  quarantinedGroups : KeyedTable (Prod.fst : GroupId × GroupHydrationQuarantineReason → GroupId)
  -- halts, in memory and in the stored record
  isUnrecoverable : GroupId → Bool
  storedUnrecoverable : GroupId → Bool
  deferredPeelRowLimit : ℕ
  deferredPeelGroupByteLimit : ℕ
  deferredPeelAccountByteLimit : ℕ

/-- What the reconstruction reads: the stored groups, and the deferred rows of each. -/
structure Storage where
  listGroups : Except StorageError (KeyedTable (id : GroupId → GroupId))
  listDeferred : GroupId → Except StorageError PayloadBytesById

namespace Engine

variable (engine : Engine) (groupId : GroupId)

def quarantinedReason : Option GroupHydrationQuarantineReason :=
  (engine.quarantinedGroups.get? groupId).map Prod.snd

def isQuarantined : Bool := (engine.quarantinedReason groupId).isSome

def deferredPeelSweepIsBlocked : Bool :=
  engine.isQuarantined groupId || engine.isUnrecoverable groupId

/-- `entry(group_id).or_default()`. -/
def entry : DeferredPeelGroupState :=
  (engine.deferredPeel.get? groupId).getD (.new groupId)

def put (state : DeferredPeelGroupState) : Engine :=
  { engine with deferredPeel := engine.deferredPeel.upsert state }

def setAccountBytes (bytes : ℕ) : Engine :=
  { engine with deferredPeelAccount := { engine.deferredPeelAccount with bytes } }

/-! ### The operations -/

/-- The loop of the reconstruction, with the bytes it has counted.  The groups before one that
cannot be listed keep what was read for them. -/
def reconstruct (storage : Storage) :
    List GroupId → Engine → ℕ → Engine × Except StorageError ℕ
  | [], engine, accountBytes => (engine, .ok accountBytes)
  | groupId :: groupIds, engine, accountBytes =>
    match storage.listDeferred groupId with
    | .error e => (engine, .error e)
    | .ok records =>
      let state := (engine.entry groupId).refreshed records
      reconstruct storage groupIds (engine.put state)
        (if engine.deferredPeelSweepIsBlocked groupId then accountBytes
          else saturatingAdd accountBytes state.deferredBytes)

def ensurePeelDeferredUsageInitialized (storage : Storage) : Engine × Except StorageError Unit :=
  if engine.deferredPeelAccount.counted then (engine, .ok ())
  else
    match storage.listGroups with
    | .error e => (engine, .error e)
    | .ok groupIds =>
      match reconstruct storage groupIds.rows engine 0 with
      | (engine, .error e) => (engine, .error e)
      | (engine, .ok accountBytes) =>
        ({ engine with deferredPeelAccount := ⟨accountBytes, true⟩ }, .ok ())

def chargedDeferredPeelBytes : ℕ :=
  if engine.deferredPeelAccount.counted = false then 0
  else if engine.isUnrecoverable groupId || engine.storedUnrecoverable groupId then 0
  else (engine.deferredPeel.get? groupId).elim 0 DeferredPeelGroupState.deferredBytes

def dischargeDeferredPeelAccountForGroup : Engine :=
  engine.setAccountBytes
    (engine.deferredPeelAccount.bytes - engine.chargedDeferredPeelBytes groupId)

def rechargeDeferredPeelAccountForGroup : Engine :=
  engine.setAccountBytes
    (saturatingAdd engine.deferredPeelAccount.bytes (engine.chargedDeferredPeelBytes groupId))

/-- Only the first reason recorded for a group moves its bytes. -/
def enterHydrationQuarantine (reason : GroupHydrationQuarantineReason) : Engine :=
  let entered :=
    { engine with quarantinedGroups := engine.quarantinedGroups.upsert (groupId, reason) }
  if engine.isQuarantined groupId then entered
  else entered.dischargeDeferredPeelAccountForGroup groupId

def leaveHydrationQuarantine : Engine × Bool :=
  if engine.isQuarantined groupId then
    let left := { engine with quarantinedGroups := engine.quarantinedGroups.erase groupId }
    (left.rechargeDeferredPeelAccountForGroup groupId, true)
  else (engine, false)

def refreshPeelDeferredGroupUsage (records : PayloadBytesById) : Engine :=
  let state := engine.entry groupId
  let refreshed := state.refreshed records
  { engine.put refreshed with
    deferredPeelAccount := engine.deferredPeelAccount.reconcileGroupBytes state.deferredBytes
      refreshed.deferredBytes }

/-- Whether a write fits, and the engine with an entry for the group. -/
def hasPeelDeferredCapacity (storage : Storage) (groupId : GroupId)
    (previousPayloadBytes : Option ℕ) (incomingPayloadBytes : ℕ) :
    Engine × Except StorageError Bool :=
  match engine.ensurePeelDeferredUsageInitialized storage with
  | (engine, .error e) => (engine, .error e)
  | (engine, .ok _) =>
    let incomingRows := if previousPayloadBytes.isNone then 1 else 0
    let additionalBytes := incomingPayloadBytes - previousPayloadBytes.getD 0
    let chargesAccount := !engine.deferredPeelSweepIsBlocked groupId
    let state := engine.entry groupId
    let groupHasCapacity := state.hasCapacity incomingRows additionalBytes
      engine.deferredPeelRowLimit engine.deferredPeelGroupByteLimit
    let accountHasCapacity := additionalBytes == 0 || !chargesAccount ||
      decide (saturatingAdd engine.deferredPeelAccount.bytes additionalBytes ≤
        engine.deferredPeelAccountByteLimit)
    (engine.put state, .ok (groupHasCapacity && accountHasCapacity))

def notePeelDeferredRowPersisted (messageId : MessageId) (payloadBytes : ℕ) : Engine :=
  let noted := (engine.entry groupId).noteRowPersisted messageId payloadBytes
  let bytes := engine.deferredPeelAccount.bytes
  if !engine.deferredPeelSweepIsBlocked groupId && engine.deferredPeelAccount.counted then
    match noted.2 with
    | some previous =>
      (engine.put noted.1).setAccountBytes (saturatingAdd (bytes - previous) payloadBytes)
    | none => (engine.put noted.1).setAccountBytes (saturatingAdd bytes payloadBytes)
  else engine.put noted.1

/-- Audit the next refusal again: of every group if the account has room again, otherwise of the
group that has. -/
def rearmCapRejections (accountReopened localReopened : Bool) : Engine :=
  if accountReopened then
    { engine with
      deferredPeel := engine.deferredPeel.filterMapRows
        (fun state => some { state with capRejectionAudited := false })
        (fun _ _ h => Option.some.inj h ▸ rfl) }
  else if localReopened then
    match engine.deferredPeel.get? groupId with
    | some state => engine.put { state with capRejectionAudited := false }
    | none => engine
  else engine

/-- The row leaves the group and the account, whether or not the group is quarantined. -/
def notePeelDeferredRowRetiredById (id : MessageId) : Engine :=
  match engine.deferredPeel.get? groupId with
  | none => engine
  | some state =>
    match state.retained id with
    | none => engine
    | some payloadBytes =>
      let account := engine.deferredPeelAccount
      let state :=
        { state with
          deferredPayloadBytesById := state.deferredPayloadBytesById.erase id
          deferredRows := state.deferredRows - 1
          deferredBytes := state.deferredBytes - payloadBytes }
      let bytes := if account.counted then account.bytes - payloadBytes else account.bytes
      let limit := engine.deferredPeelAccountByteLimit
      ((engine.put state).setAccountBytes bytes).rearmCapRejections groupId
        (account.counted && decide (limit ≤ account.bytes) && decide (bytes < limit))
        (decide (state.deferredRows < engine.deferredPeelRowLimit) &&
          decide (state.deferredBytes < engine.deferredPeelGroupByteLimit) &&
          decide (bytes < limit))

end Engine

end DeferredPeel

end Mdk
