/-
Runs of the deferred-peel accounting.

* `Exact` — the counters are what is retained, and the total is the sum over the groups that are
  not quarantined;
* `Exact.put` — the one way in which the state of a group is replaced;
* `accounting_exact` — every run in which no row is retired inside a quarantine keeps the counters
  exact;
* `retire_in_quarantine_drifts` — a row that is retired inside a quarantine is taken off the total
  a second time.
-/
import Mdk.Runs
import Mdk.DeferredPeel

namespace Mdk

open List

namespace DeferredPeel

/-! ### What is retained -/

def payloadBytes (records : PayloadBytesById) : ℕ :=
  (records.rows.map DeferredMessageMetadata.payloadLen).sum

theorem saturatingAdd_eq {a b : ℕ} (h : a + b ≤ usizeMax) : saturatingAdd a b = a + b :=
  min_eq_left h

theorem foldl_saturatingAdd {rows : List DeferredMessageMetadata} {sum : ℕ}
    (h : sum + (rows.map DeferredMessageMetadata.payloadLen).sum ≤ usizeMax) :
    rows.foldl (fun sum record => saturatingAdd sum record.payloadLen) sum =
      sum + (rows.map DeferredMessageMetadata.payloadLen).sum := by
  induction rows generalizing sum with
  | nil => rfl
  | cons row rows ih =>
    rw [map_cons, sum_cons] at h ⊢
    rw [foldl_cons, saturatingAdd_eq (by omega), ih (by omega)]
    omega

/-- The counters of a group are those of its rows, and within the limits if `bounded`. -/
structure DeferredPeelGroupState.Exact (state : DeferredPeelGroupState) (bounded : Prop)
    (rowLimit byteLimit : ℕ) : Prop where
  rows : state.deferredRows = state.deferredPayloadBytesById.rows.length
  bytes : state.deferredBytes = payloadBytes state.deferredPayloadBytesById
  within : bounded → state.deferredRows ≤ rowLimit ∧ state.deferredBytes ≤ byteLimit

namespace Engine

variable (engine : Engine) (bounded : Prop)

/-- What a group counts for in the total. -/
def charge (state : DeferredPeelGroupState) : ℕ :=
  if engine.isQuarantined state.groupId then 0 else state.deferredBytes

/-- What all groups retain can be counted in a `usize`. -/
structure Fits : Prop where
  bytes : (engine.deferredPeel.rows.map fun state =>
    payloadBytes state.deferredPayloadBytesById).sum ≤ usizeMax
  rows : ∀ state ∈ engine.deferredPeel.rows,
    state.deferredPayloadBytesById.rows.length ≤ usizeMax

/-- No group is halted. -/
def Unhalted : Prop :=
  ∀ groupId, engine.isUnrecoverable groupId = false ∧ engine.storedUnrecoverable groupId = false

/-- The counters are those of what is retained. -/
structure Exact : Prop where
  counted : engine.deferredPeelAccount.counted = true
  unhalted : engine.Unhalted
  groups : ∀ state ∈ engine.deferredPeel.rows,
    state.Exact bounded engine.deferredPeelRowLimit engine.deferredPeelGroupByteLimit
  total : engine.deferredPeelAccount.bytes = (engine.deferredPeel.rows.map engine.charge).sum
  fits : engine.Fits

variable {engine : Engine} {bounded : Prop} {groupId : GroupId}
  {state next : DeferredPeelGroupState}

theorem mem_of_mem_put (h : state ∈ (engine.put next).deferredPeel.rows) :
    state = next ∨ state ∈ engine.deferredPeel.rows := by
  have hget := KeyedTable.mem_rows_iff.mp h
  rw [put, KeyedTable.get?_upsert] at hget
  split at hget
  · exact .inl (Option.some.inj hget).symm
  · exact .inr (KeyedTable.mem_rows_iff.mpr hget)

@[simp] theorem groupId_entry : (engine.entry groupId).groupId = groupId := by
  unfold entry
  cases hget : engine.deferredPeel.get? groupId with
  | none => rfl
  | some state => exact KeyedTable.key_of_get? hget

theorem entry_of_get? (h : engine.deferredPeel.get? groupId = some state) :
    engine.entry groupId = state := by
  rw [Engine.entry, h, Option.getD_some]

/-- The entry of a group is stored, or it is empty. -/
theorem entry_cases (engine : Engine) (groupId : GroupId) :
    engine.entry groupId ∈ engine.deferredPeel.rows ∨ engine.entry groupId = .new groupId := by
  unfold entry
  cases hget : engine.deferredPeel.get? groupId with
  | none => exact .inr rfl
  | some state => exact .inl (KeyedTable.get?_eq_some_iff.mp hget).1

/-- A sum over the groups when one of them is replaced. -/
theorem sum_put (engine : Engine) (state : DeferredPeelGroupState)
    (f : DeferredPeelGroupState → ℕ) (hnew : ∀ groupId, f (.new groupId) = 0) :
    ((engine.put state).deferredPeel.rows.map f).sum + f (engine.entry state.groupId) =
      (engine.deferredPeel.rows.map f).sum + f state := by
  have hsum := KeyedTable.sum_upsert engine.deferredPeel state f
  have hentry : f (engine.entry state.groupId) =
      (engine.deferredPeel.get? state.groupId).elim 0 f := by
    unfold entry
    cases engine.deferredPeel.get? state.groupId with
    | none => exact hnew _
    | some state => rfl
  rw [hentry]
  exact hsum

theorem charge_new (groupId : GroupId) : engine.charge (.new groupId) = 0 := by
  unfold charge
  split <;> rfl

theorem Exact.entry (h : engine.Exact bounded) (groupId : GroupId) :
    (engine.entry groupId).Exact bounded engine.deferredPeelRowLimit
      engine.deferredPeelGroupByteLimit := by
  rcases entry_cases engine groupId with hmem | hnew
  · exact h.groups _ hmem
  · rw [hnew]
    exact ⟨rfl, rfl, fun _ => ⟨Nat.zero_le _, Nat.zero_le _⟩⟩

/-- A group is not charged more than the total. -/
theorem Exact.charge_entry_le (h : engine.Exact bounded) (groupId : GroupId) :
    engine.charge (engine.entry groupId) ≤ engine.deferredPeelAccount.bytes := by
  rcases entry_cases engine groupId with hmem | hnew
  · rw [h.total]
    exact single_le_sum (fun _ _ => Nat.zero_le _) _ (mem_map_of_mem hmem)
  · rw [hnew, charge_new]
    exact Nat.zero_le _

theorem charge_le {rowLimit byteLimit : ℕ} (h : state.Exact bounded rowLimit byteLimit) :
    engine.charge state ≤ payloadBytes state.deferredPayloadBytesById := by
  rw [← h.bytes, charge]
  split
  · exact Nat.zero_le _
  · exact le_rfl

/-- What is charged is retained, so that the total is a `usize` as well. -/
theorem total_le (hgroups : ∀ state ∈ engine.deferredPeel.rows,
      state.Exact bounded engine.deferredPeelRowLimit engine.deferredPeelGroupByteLimit)
    (hfits : engine.Fits) : (engine.deferredPeel.rows.map engine.charge).sum ≤ usizeMax :=
  le_trans (sum_le_sum fun state hstate => charge_le (hgroups state hstate)) hfits.bytes

/-- The state of a group is replaced, and the total moves by what the group is charged. -/
theorem Exact.put (h : engine.Exact bounded) {bytes : ℕ}
    (hstate : state.Exact bounded engine.deferredPeelRowLimit engine.deferredPeelGroupByteLimit)
    (hfits : (engine.put state).Fits)
    (hbytes : bytes + engine.charge (engine.entry state.groupId) =
      engine.deferredPeelAccount.bytes + engine.charge state) :
    ((engine.put state).setAccountBytes bytes).Exact bounded := by
  refine ⟨h.counted, h.unhalted, ?_, ?_, ⟨hfits.bytes, hfits.rows⟩⟩
  · intro other hother
    rcases mem_of_mem_put hother with rfl | hmem
    · exact hstate
    · exact h.groups other hmem
  · have hsum := sum_put engine state engine.charge charge_new
    have htotal := h.total
    show bytes = ((engine.put state).deferredPeel.rows.map engine.charge).sum
    omega

theorem Fits.bytes_le (h : engine.Fits) (hmem : state ∈ engine.deferredPeel.rows) :
    payloadBytes state.deferredPayloadBytesById ≤ usizeMax :=
  le_trans (single_le_sum (fun _ _ => Nat.zero_le _) _ (mem_map.mpr ⟨state, hmem, rfl⟩))
    h.bytes

/-- A group that retains no more than before still fits. -/
theorem Fits.put (h : engine.Fits)
    (hbytes : payloadBytes state.deferredPayloadBytesById ≤
      payloadBytes (engine.entry state.groupId).deferredPayloadBytesById)
    (hrows : state.deferredPayloadBytesById.rows.length ≤
      (engine.entry state.groupId).deferredPayloadBytesById.rows.length) :
    (engine.put state).Fits := by
  constructor
  · have hsum := sum_put engine state
      (fun state => payloadBytes state.deferredPayloadBytesById) (fun _ => rfl)
    have hle := h.bytes
    omega
  · intro other hother
    rcases mem_of_mem_put hother with rfl | hmem
    · rcases entry_cases engine other.groupId with hentry | hnew
      · exact le_trans hrows (h.rows _ hentry)
      · rw [hnew] at hrows
        exact le_trans hrows (Nat.zero_le _)
    · exact h.rows other hmem

/-! ### One operation -/

theorem sum_retained_le {records : PayloadBytesById} {id : MessageId}
    {row : DeferredMessageMetadata} (h : records.get? id = some row) :
    row.payloadLen ≤ payloadBytes records :=
  single_le_sum (fun _ _ => Nat.zero_le _) _
    (mem_map_of_mem (KeyedTable.get?_eq_some_iff.mp h).1)

/-- The row is admitted, so the group stays within its limits. -/
theorem noteRowPersisted_exact {rowLimit byteLimit bytes : ℕ} {id : MessageId}
    (h : state.Exact bounded rowLimit byteLimit)
    (hcapacity : state.hasCapacity (if (state.retained id).isNone then 1 else 0)
      (bytes - (state.retained id).getD 0) rowLimit byteLimit = true)
    (hbytes : payloadBytes (state.deferredPayloadBytesById.upsert ⟨id, bytes⟩) ≤ usizeMax)
    (hrows : (state.deferredPayloadBytesById.upsert ⟨id, bytes⟩).rows.length ≤ usizeMax) :
    (state.noteRowPersisted id bytes).1.Exact bounded rowLimit byteLimit ∧
      (state.noteRowPersisted id bytes).1.deferredBytes + (state.retained id).getD 0 =
        state.deferredBytes + bytes := by
  obtain ⟨hexactRows, hexactBytes, hwithin⟩ := h
  set byId := state.deferredPayloadBytesById.upsert ⟨id, bytes⟩ with hbyId
  have hsum : payloadBytes byId + (state.deferredPayloadBytesById.get? id).elim 0
      DeferredMessageMetadata.payloadLen = payloadBytes state.deferredPayloadBytesById + bytes :=
    KeyedTable.sum_upsert _ _ _
  unfold DeferredPeelGroupState.hasCapacity at hcapacity
  unfold DeferredPeelGroupState.noteRowPersisted
  cases hget : state.deferredPayloadBytesById.get? id with
  | none =>
    -- A new row takes a slot and all of its bytes.
    have hlength : byId.rows.length = state.deferredPayloadBytesById.rows.length + 1 := by
      rw [hbyId, KeyedTable.rows_upsert_of_get?_none hget, length_append,
        length_singleton]
    have hretained : state.retained id = none := by
      rw [DeferredPeelGroupState.retained, hget, Option.map_none]
    simp only [hretained, hget, Option.isNone_none, if_true, Option.getD_none, Option.elim_none,
      Bool.and_eq_true, Bool.or_eq_true, beq_iff_eq, decide_eq_true_eq, one_ne_zero, false_or]
      at hcapacity hsum ⊢
    have hrow : saturatingAdd state.deferredRows 1 = state.deferredRows + 1 :=
      saturatingAdd_eq (by omega)
    have hbyte : saturatingAdd state.deferredBytes bytes = state.deferredBytes + bytes :=
      saturatingAdd_eq (by omega)
    rw [hrow, Nat.sub_zero, hbyte] at hcapacity
    rw [hrow, hbyte]
    refine ⟨⟨?_, ?_, fun hbounded => ⟨hcapacity.1, ?_⟩⟩, rfl⟩
    · show state.deferredRows + 1 = byId.rows.length
      omega
    · show state.deferredBytes + bytes = payloadBytes byId
      omega
    · have := hwithin hbounded
      show state.deferredBytes + bytes ≤ byteLimit
      omega
  | some row =>
    -- A row that is replaced keeps its slot and is charged its growth.
    have hlength : byId.rows.length = state.deferredPayloadBytesById.rows.length :=
      KeyedTable.length_rows_upsert_of_get?_some hget
    have hretained : state.retained id = some row.payloadLen := by
      rw [DeferredPeelGroupState.retained, hget, Option.map_some]
    have hle := sum_retained_le hget
    simp only [hretained, hget, Option.isNone_some, Bool.false_eq_true, if_false,
      Option.getD_some, Option.elim_some, Bool.and_eq_true, Bool.or_eq_true, beq_iff_eq,
      decide_eq_true_eq] at hcapacity hsum ⊢
    have hbyte : saturatingAdd (state.deferredBytes - row.payloadLen) bytes =
        state.deferredBytes - row.payloadLen + bytes := saturatingAdd_eq (by omega)
    have hgrown : state.deferredBytes ≤ byteLimit →
        state.deferredBytes - row.payloadLen + bytes ≤ byteLimit := by
      intro hbyteLimit
      rcases hcapacity.2 with hsmaller | hgrown
      · omega
      · by_cases hless : bytes ≤ row.payloadLen
        · omega
        · rw [saturatingAdd_eq (by omega)] at hgrown
          omega
    rw [hbyte]
    refine ⟨⟨?_, ?_, fun hbounded => (hwithin hbounded).imp_right hgrown⟩, ?_⟩
    · show state.deferredRows = byId.rows.length
      omega
    · show state.deferredBytes - row.payloadLen + bytes = payloadBytes byId
      omega
    · omega

theorem Exact.sweepIsBlocked (h : engine.Exact bounded) (groupId : GroupId) :
    engine.deferredPeelSweepIsBlocked groupId = engine.isQuarantined groupId := by
  rw [deferredPeelSweepIsBlocked, (h.unhalted groupId).1, Bool.or_false]

@[simp] theorem groupId_noteRowPersisted (id : MessageId) (bytes : ℕ) :
    (state.noteRowPersisted id bytes).1.groupId = state.groupId := by
  unfold DeferredPeelGroupState.noteRowPersisted
  cases state.retained id <;> rfl

theorem byId_noteRowPersisted (id : MessageId) (bytes : ℕ) :
    (state.noteRowPersisted id bytes).1.deferredPayloadBytesById =
      state.deferredPayloadBytesById.upsert ⟨id, bytes⟩ := by
  unfold DeferredPeelGroupState.noteRowPersisted
  cases state.retained id <;> rfl

theorem previous_noteRowPersisted (id : MessageId) (bytes : ℕ) :
    (state.noteRowPersisted id bytes).2 = state.retained id := by
  unfold DeferredPeelGroupState.noteRowPersisted
  cases state.retained id <;> rfl

theorem Exact.retained_le {rowLimit byteLimit : ℕ} (h : state.Exact bounded rowLimit byteLimit)
    (id : MessageId) : (state.retained id).getD 0 ≤ state.deferredBytes := by
  rw [h.bytes, DeferredPeelGroupState.retained]
  cases hget : state.deferredPayloadBytesById.get? id with
  | none => exact Nat.zero_le _
  | some row => exact sum_retained_le hget

/-- The total after a write, of a group that is charged and of one that is not. -/
theorem notePeelDeferredRowPersisted_eq (h : engine.Exact bounded) (id : MessageId) (bytes : ℕ) :
    engine.notePeelDeferredRowPersisted groupId id bytes =
      (engine.put ((engine.entry groupId).noteRowPersisted id bytes).1).setAccountBytes
        (if engine.isQuarantined groupId then engine.deferredPeelAccount.bytes
          else saturatingAdd
            (engine.deferredPeelAccount.bytes - ((engine.entry groupId).retained id).getD 0)
            bytes) := by
  unfold notePeelDeferredRowPersisted
  simp only [h.sweepIsBlocked, h.counted, Bool.and_true, previous_noteRowPersisted]
  cases engine.isQuarantined groupId with
  | true => rfl
  | false => cases (engine.entry groupId).retained id <;> rfl

/-- **A write that was admitted.** -/
theorem Exact.persisted (h : engine.Exact bounded) {id : MessageId} {bytes : ℕ}
    (hcapacity : (engine.entry groupId).hasCapacity
      (if ((engine.entry groupId).retained id).isNone then 1 else 0)
      (bytes - ((engine.entry groupId).retained id).getD 0)
      engine.deferredPeelRowLimit engine.deferredPeelGroupByteLimit = true)
    (hfits : (engine.notePeelDeferredRowPersisted groupId id bytes).Fits) :
    (engine.notePeelDeferredRowPersisted groupId id bytes).Exact bounded := by
  rw [notePeelDeferredRowPersisted_eq h] at hfits ⊢
  set state := ((engine.entry groupId).noteRowPersisted id bytes).1 with hstate
  have hput : (engine.put state).Fits := ⟨hfits.bytes, hfits.rows⟩
  have hmem : state ∈ (engine.put state).deferredPeel.rows :=
    KeyedTable.mem_rows_iff.mpr (KeyedTable.get?_upsert_self _ _)
  have hbyId : state.deferredPayloadBytesById =
      (engine.entry groupId).deferredPayloadBytesById.upsert ⟨id, bytes⟩ :=
    byId_noteRowPersisted id bytes
  obtain ⟨hexact, hmoved⟩ := noteRowPersisted_exact (h.entry groupId) hcapacity
    (hbyId ▸ hput.bytes_le hmem) (hbyId ▸ hput.rows state hmem)
  rw [← hstate] at hexact hmoved
  have hgroup : state.groupId = groupId := by rw [hstate]; simp
  refine h.put hexact hput ?_
  -- The total stays a `usize`, since it is a sum of what is retained.
  have hle := h.charge_entry_le groupId
  have hold := Exact.retained_le (h.entry groupId) id
  have htotal := @total_le (engine.put state) bounded ?_ hput
  · have hsum := sum_put engine state engine.charge charge_new
    have hcurrent := h.total
    rw [hgroup] at hsum ⊢
    change ((engine.put state).deferredPeel.rows.map engine.charge).sum ≤ usizeMax at htotal
    simp only [charge, hgroup, groupId_entry] at hle hsum ⊢
    split
    · rfl
    · rename_i hquarantined
      rw [if_neg hquarantined, if_neg hquarantined] at hsum
      rw [if_neg hquarantined] at hle
      rw [saturatingAdd_eq (by omega)]
      omega
  · intro other hother
    rcases mem_of_mem_put hother with rfl | hother
    · exact hexact
    · exact h.groups other hother

/-- The flags of refusals are not counted. -/
theorem Exact.rearm (h : engine.Exact bounded) (accountReopened localReopened : Bool) :
    (engine.rearmCapRejections groupId accountReopened localReopened).Exact bounded := by
  unfold rearmCapRejections
  split
  · have hrows : ∀ rows : List DeferredPeelGroupState,
        rows.filterMap (fun state => some { state with capRejectionAudited := false }) =
          rows.map fun state => { state with capRejectionAudited := false } :=
      fun rows => congrFun filterMap_eq_map' rows
    refine ⟨h.counted, h.unhalted, ?_, ?_, ?_, ?_⟩
    · intro state hstate
      obtain ⟨old, hold, heq⟩ := mem_filterMap.mp hstate
      cases heq
      obtain ⟨hrows, hbytes, hwithin⟩ := h.groups old hold
      exact ⟨hrows, hbytes, hwithin⟩
    · refine h.total.trans ?_
      show _ = ((engine.deferredPeel.rows.filterMap _).map engine.charge).sum
      rw [hrows, map_map]
      rfl
    · show ((engine.deferredPeel.rows.filterMap _).map _).sum ≤ usizeMax
      rw [hrows, map_map]
      exact h.fits.bytes
    · intro state hstate
      obtain ⟨old, hold, heq⟩ := mem_filterMap.mp hstate
      cases heq
      exact h.fits.rows old hold
  · split
    · cases hget : engine.deferredPeel.get? groupId with
      | none => exact h
      | some state =>
        have hentry := entry_of_get? hget
        have hgroup : state.groupId = groupId := KeyedTable.key_of_get? hget
        obtain ⟨hrows, hbytes, hwithin⟩ := h.groups state (KeyedTable.get?_eq_some_iff.mp hget).1
        show ((engine.put { state with capRejectionAudited := false }).setAccountBytes
          engine.deferredPeelAccount.bytes).Exact bounded
        refine h.put ⟨hrows, hbytes, hwithin⟩ (h.fits.put ?_ ?_) ?_
        · simp only [hgroup, hentry, le_refl]
        · simp only [hgroup, hentry, le_refl]
        · simp only [hgroup, hentry, charge]
    · exact h

/-- **A row that is retired** outside a quarantine. -/
theorem Exact.retired (h : engine.Exact bounded) {id : MessageId}
    (hlive : ((engine.entry groupId).retained id).isSome → engine.isQuarantined groupId = false) :
    (engine.notePeelDeferredRowRetiredById groupId id).Exact bounded := by
  unfold notePeelDeferredRowRetiredById
  cases hget : engine.deferredPeel.get? groupId with
  | none => exact h
  | some state =>
    have hentry := entry_of_get? hget
    have hgroup : state.groupId = groupId := KeyedTable.key_of_get? hget
    rw [hentry] at hlive
    dsimp only
    cases hretained : state.retained id with
    | none => exact h
    | some payloadLen =>
      have hquarantined := hlive (by rw [hretained]; rfl)
      obtain ⟨row, hrow, rfl⟩ := Option.map_eq_some_iff.mp hretained
      obtain ⟨hrows, hbytes, hwithin⟩ := h.groups state (KeyedTable.get?_eq_some_iff.mp hget).1
      have hsum := KeyedTable.sum_erase state.deferredPayloadBytesById id
        DeferredMessageMetadata.payloadLen
      have hcount := KeyedTable.sum_erase state.deferredPayloadBytesById id fun _ => 1
      have hcharge := h.charge_entry_le groupId
      have hle := sum_retained_le hrow
      rw [hrow, Option.elim_some] at hsum hcount
      simp only [map_const', sum_replicate, smul_eq_mul, mul_one] at hcount
      change payloadBytes (state.deferredPayloadBytesById.erase id) + row.payloadLen =
        payloadBytes state.deferredPayloadBytesById at hsum
      simp only [h.counted, if_true, Bool.true_and]
      refine Exact.rearm (h.put ⟨?_, ?_, fun hbounded => ?_⟩ (h.fits.put ?_ ?_) ?_) _ _
      · show state.deferredRows - 1 = (state.deferredPayloadBytesById.erase id).rows.length
        omega
      · show state.deferredBytes - row.payloadLen =
          payloadBytes (state.deferredPayloadBytesById.erase id)
        omega
      · exact (hwithin hbounded).imp (le_trans (Nat.sub_le _ _)) (le_trans (Nat.sub_le _ _))
      · simp only [hgroup, hentry]
        omega
      · simp only [hgroup, hentry]
        exact KeyedTable.length_erase_le _ _
      · simp only [charge, hgroup, hentry, hquarantined, Bool.false_eq_true, if_false] at hcharge ⊢
        omega

/-- **A group whose rows are listed again**, outside a quarantine. -/
theorem Exact.refresh (h : engine.Exact bounded) {records : PayloadBytesById}
    (hquarantined : engine.isQuarantined groupId = false)
    (hrecords : records.rows.Perm (engine.entry groupId).deferredPayloadBytesById.rows) :
    (engine.refreshPeelDeferredGroupUsage groupId records).Exact bounded := by
  obtain ⟨hrows, hbytes, hwithin⟩ := h.entry groupId
  have hlength := hrecords.length_eq
  have hpayload : payloadBytes records =
      payloadBytes (engine.entry groupId).deferredPayloadBytesById := (hrecords.map _).sum_eq
  have hfits : payloadBytes records ≤ usizeMax := by
    rw [hpayload]
    rcases entry_cases engine groupId with hmem | hnew
    · exact h.fits.bytes_le hmem
    · rw [hnew]
      exact Nat.zero_le _
  have hfold : records.rows.foldl (fun sum record => saturatingAdd sum record.payloadLen) 0 =
      payloadBytes records := by
    rw [foldl_saturatingAdd (by rw [Nat.zero_add]; exact hfits), Nat.zero_add]
    rfl
  have hcharge := h.charge_entry_le groupId
  have htotal : engine.deferredPeelAccount.bytes ≤ usizeMax := by
    rw [h.total]
    exact total_le h.groups h.fits
  have hunchanged : saturatingAdd (engine.deferredPeelAccount.bytes -
      (engine.entry groupId).deferredBytes) (payloadBytes records) =
        engine.deferredPeelAccount.bytes := by
    simp only [charge, groupId_entry, hquarantined, Bool.false_eq_true, if_false] at hcharge
    rw [saturatingAdd_eq (by omega)]
    omega
  have heq : engine.refreshPeelDeferredGroupUsage groupId records =
      (engine.put ((engine.entry groupId).refreshed records)).setAccountBytes
        engine.deferredPeelAccount.bytes := by
    simp only [refreshPeelDeferredGroupUsage, DeferredPeelAccountState.reconcileGroupBytes,
      Engine.put, setAccountBytes, h.counted, if_true, DeferredPeelGroupState.refreshed, hfold,
      hunchanged]
  have hgroup : ((engine.entry groupId).refreshed records).groupId = groupId := groupId_entry
  rw [heq]
  refine h.put ⟨rfl, hfold, fun hbounded => ?_⟩ (h.fits.put ?_ ?_) ?_
  · have := hwithin hbounded
    show records.rows.length ≤ _ ∧ foldl _ 0 records.rows ≤ _
    omega
  · rw [hgroup]
    exact le_of_eq hpayload
  · rw [hgroup]
    exact le_of_eq hlength
  · rw [hgroup]
    simp only [charge, groupId_entry, hgroup, hquarantined, Bool.false_eq_true, if_false]
    show _ = _ + foldl _ 0 records.rows
    omega

theorem Exact.chargedBytes (h : engine.Exact bounded) (groupId : GroupId) :
    engine.chargedDeferredPeelBytes groupId = (engine.entry groupId).deferredBytes := by
  simp only [chargedDeferredPeelBytes, h.counted, Bool.true_eq_false, if_false,
    (h.unhalted groupId).1, (h.unhalted groupId).2, Bool.or_false, Bool.false_eq_true]
  unfold Engine.entry
  cases engine.deferredPeel.get? groupId <;> rfl

/-- A sum over the groups, with one of them apart. -/
theorem sum_eq_erase_add (engine : Engine) (groupId : GroupId) (f : DeferredPeelGroupState → ℕ)
    (hnew : f (.new groupId) = 0) :
    (engine.deferredPeel.rows.map f).sum =
      ((engine.deferredPeel.erase groupId).rows.map f).sum + f (engine.entry groupId) := by
  rw [← KeyedTable.sum_erase engine.deferredPeel groupId f]
  congr 1
  unfold Engine.entry
  cases engine.deferredPeel.get? groupId with
  | none => exact hnew.symm
  | some state => rfl

/-- The sum of what the groups are charged, when the quarantine of one of them changes. -/
theorem sum_charge_of_quarantine (engine other : Engine) (groupId : GroupId)
    (hsame : other.deferredPeel = engine.deferredPeel)
    (hothers : ∀ g, g ≠ groupId → other.isQuarantined g = engine.isQuarantined g) :
    (other.deferredPeel.rows.map other.charge).sum + engine.charge (engine.entry groupId) =
      (engine.deferredPeel.rows.map engine.charge).sum + other.charge (engine.entry groupId) := by
  have hrest : (engine.deferredPeel.erase groupId).rows.map other.charge =
      (engine.deferredPeel.erase groupId).rows.map engine.charge := by
    refine map_congr_left fun state hstate => ?_
    have hne : state.groupId ≠ groupId := by simpa using (mem_filter.mp hstate).2
    rw [charge, charge, hothers _ hne]
  rw [hsame, sum_eq_erase_add engine groupId other.charge (charge_new groupId),
    sum_eq_erase_add engine groupId engine.charge (charge_new groupId), hrest]
  omega

theorem isQuarantined_upsert (g : GroupId) (reason : GroupHydrationQuarantineReason) :
    isQuarantined
        { engine with quarantinedGroups := engine.quarantinedGroups.upsert (groupId, reason) } g =
      (decide (groupId = g) || engine.isQuarantined g) := by
  simp only [isQuarantined, quarantinedReason, KeyedTable.get?_upsert]
  by_cases hg : groupId = g <;> simp [hg]

theorem isQuarantined_erase (g : GroupId) :
    isQuarantined { engine with quarantinedGroups := engine.quarantinedGroups.erase groupId } g =
      (!decide (groupId = g) && engine.isQuarantined g) := by
  simp only [isQuarantined, quarantinedReason, KeyedTable.get?_erase]
  by_cases hg : groupId = g <;> simp [hg]

/-- **A quarantine is entered.** -/
theorem Exact.enter (h : engine.Exact bounded) (reason : GroupHydrationQuarantineReason) :
    (engine.enterHydrationQuarantine groupId reason).Exact bounded := by
  set entered : Engine :=
    { engine with quarantinedGroups := engine.quarantinedGroups.upsert (groupId, reason) }
    with hentered
  have hsum := sum_charge_of_quarantine engine entered groupId rfl fun g hg => by
      rw [hentered, isQuarantined_upsert, decide_eq_false hg.symm, Bool.false_or]
  have hzero : entered.charge (engine.entry groupId) = 0 := by
    rw [charge, groupId_entry, hentered, isQuarantined_upsert, decide_eq_true rfl, Bool.true_or,
      if_pos rfl]
  have htotal := h.total
  have hle := h.charge_entry_le groupId
  unfold enterHydrationQuarantine
  rw [← hentered]
  split
  · rename_i hquarantined
    refine ⟨h.counted, h.unhalted, h.groups, ?_, ⟨h.fits.bytes, h.fits.rows⟩⟩
    have hnone : engine.charge (engine.entry groupId) = 0 := by
      rw [charge, groupId_entry, hquarantined, if_pos rfl]
    show engine.deferredPeelAccount.bytes = (entered.deferredPeel.rows.map entered.charge).sum
    omega
  · rename_i hquarantined
    refine ⟨h.counted, h.unhalted, h.groups, ?_, ⟨h.fits.bytes, h.fits.rows⟩⟩
    have hcharged : entered.chargedDeferredPeelBytes groupId =
        engine.charge (engine.entry groupId) := by
      rw [charge, groupId_entry, if_neg hquarantined]
      exact h.chargedBytes groupId
    show engine.deferredPeelAccount.bytes - entered.chargedDeferredPeelBytes groupId =
      (entered.deferredPeel.rows.map entered.charge).sum
    omega

/-- **A quarantine is left.** -/
theorem Exact.leave (h : engine.Exact bounded) :
    (engine.leaveHydrationQuarantine groupId).1.Exact bounded := by
  unfold leaveHydrationQuarantine
  split
  · rename_i hquarantined
    set left : Engine :=
      { engine with quarantinedGroups := engine.quarantinedGroups.erase groupId } with hleft
    have hsum := sum_charge_of_quarantine engine left groupId rfl fun g hg => by
        rw [hleft, isQuarantined_erase, decide_eq_false hg.symm, Bool.not_false, Bool.true_and]
    have hzero : engine.charge (engine.entry groupId) = 0 := by
      rw [charge, groupId_entry, hquarantined, if_pos rfl]
    have hcharged : left.chargedDeferredPeelBytes groupId = left.charge (engine.entry groupId) := by
      rw [charge, groupId_entry, hleft, isQuarantined_erase, decide_eq_true rfl, Bool.not_true,
        Bool.false_and, if_neg Bool.false_ne_true]
      exact h.chargedBytes groupId
    have htotal := h.total
    have hle : (left.deferredPeel.rows.map left.charge).sum ≤ usizeMax :=
      total_le h.groups ⟨h.fits.bytes, h.fits.rows⟩
    refine ⟨h.counted, h.unhalted, h.groups, ?_, ⟨h.fits.bytes, h.fits.rows⟩⟩
    show saturatingAdd engine.deferredPeelAccount.bytes (left.chargedDeferredPeelBytes groupId) =
      (left.deferredPeel.rows.map left.charge).sum
    rw [saturatingAdd_eq (by omega)]
    omega
  · exact h

/-! ### The reconstruction -/

/-- The value of a group that is not among those still to be read. -/
def outside (groupIds : List GroupId) (f : DeferredPeelGroupState → ℕ)
    (state : DeferredPeelGroupState) : ℕ :=
  if state.groupId ∈ groupIds then 0 else f state

theorem sum_outside_put (engine : Engine) {groupIds : List GroupId}
    {f : DeferredPeelGroupState → ℕ} (hnew : ∀ g, f (.new g) = 0) (hgroup : state.groupId = groupId)
    (hnot : groupId ∉ groupIds) :
    ((engine.put state).deferredPeel.rows.map (outside groupIds f)).sum =
      (engine.deferredPeel.rows.map (outside (groupId :: groupIds) f)).sum + f state := by
  have houtside : ∀ ids g, outside ids f (.new g) = 0 := by
    intro ids g
    unfold outside
    split
    · rfl
    · exact hnew g
  have hput := sum_put engine state (outside groupIds f) (houtside groupIds)
  have hold := sum_eq_erase_add engine groupId (outside groupIds f) (houtside groupIds groupId)
  have hread := sum_eq_erase_add engine groupId (outside (groupId :: groupIds) f)
    (houtside _ groupId)
  have hzero : outside (groupId :: groupIds) f (engine.entry groupId) = 0 := by
    rw [outside, groupId_entry, if_pos (mem_cons_self)]
  have hone : outside groupIds f state = f state := by rw [outside, hgroup, if_neg hnot]
  have hrest : (engine.deferredPeel.erase groupId).rows.map (outside (groupId :: groupIds) f) =
      (engine.deferredPeel.erase groupId).rows.map (outside groupIds f) := by
    refine map_congr_left fun other hother => ?_
    have hne : other.groupId ≠ groupId := by simpa using (mem_filter.mp hother).2
    simp only [outside, mem_cons, hne, false_or]
  rw [hrest] at hread
  rw [hgroup] at hput
  omega

/-- What the engine opens with: the stored groups and their rows. -/
structure Opens (engine : Engine) (storage : Storage)
    (groupIds : KeyedTable (id : GroupId → GroupId)) (retained : GroupId → PayloadBytesById) :
    Prop where
  uncounted : engine.deferredPeelAccount.counted = false
  unhalted : engine.Unhalted
  groups : storage.listGroups = .ok groupIds
  deferred : ∀ g ∈ groupIds.rows, storage.listDeferred g = .ok (retained g)
  rows_fit : ∀ g ∈ groupIds.rows, (retained g).rows.length ≤ usizeMax
  bytes_fit : (groupIds.rows.map fun g => payloadBytes (retained g)).sum ≤ usizeMax
  -- A group that is not stored has retained nothing.
  others : ∀ state ∈ engine.deferredPeel.rows, state.groupId ∉ groupIds.rows →
    state.deferredRows = 0 ∧ state.deferredBytes = 0 ∧
      state.deferredPayloadBytesById = KeyedTable.empty

/-- The stored rows are within the limits. -/
def OpensWithin (engine : Engine) (groupIds : KeyedTable (id : GroupId → GroupId))
    (retained : GroupId → PayloadBytesById) : Prop :=
  ∀ g ∈ groupIds.rows, (retained g).rows.length ≤ engine.deferredPeelRowLimit ∧
    payloadBytes (retained g) ≤ engine.deferredPeelGroupByteLimit

/-- While the groups are read: those that have been are exact, and so is the sum over them. -/
structure Counting (retained : GroupId → PayloadBytesById) (bounded : Prop)
    (groupIds : List GroupId) (engine : Engine) (accountBytes : ℕ) : Prop where
  unhalted : engine.Unhalted
  groups : ∀ state ∈ engine.deferredPeel.rows, state.groupId ∉ groupIds →
    state.Exact bounded engine.deferredPeelRowLimit engine.deferredPeelGroupByteLimit ∧
      state.deferredPayloadBytesById.rows.length ≤ usizeMax
  total : accountBytes = (engine.deferredPeel.rows.map (outside groupIds engine.charge)).sum
  fits : (engine.deferredPeel.rows.map (outside groupIds fun state =>
      payloadBytes state.deferredPayloadBytesById)).sum +
    (groupIds.map fun g => payloadBytes (retained g)).sum ≤ usizeMax

theorem Counting.read {retained : GroupId → PayloadBytesById} {groupIds : List GroupId}
    {accountBytes : ℕ} (h : Counting retained bounded (groupId :: groupIds) engine accountBytes)
    (hnot : groupId ∉ groupIds)
    (hwithin : bounded → (retained groupId).rows.length ≤ engine.deferredPeelRowLimit ∧
      payloadBytes (retained groupId) ≤ engine.deferredPeelGroupByteLimit)
    (hfit : (retained groupId).rows.length ≤ usizeMax) :
    Counting retained bounded groupIds
      (engine.put ((engine.entry groupId).refreshed (retained groupId)))
      (if engine.deferredPeelSweepIsBlocked groupId then accountBytes
        else saturatingAdd accountBytes
          ((engine.entry groupId).refreshed (retained groupId)).deferredBytes) := by
  set state := (engine.entry groupId).refreshed (retained groupId) with hstate
  have hgroup : state.groupId = groupId := groupId_entry
  have hfits := h.fits
  rw [map_cons, sum_cons] at hfits
  have hfold : state.deferredBytes = payloadBytes (retained groupId) := by
    show foldl _ 0 (retained groupId).rows = _
    rw [foldl_saturatingAdd, Nat.zero_add]
    · rfl
    · rw [Nat.zero_add]
      change payloadBytes (retained groupId) ≤ usizeMax
      omega
  have hsum := sum_outside_put engine (f := engine.charge) charge_new hgroup hnot
  have hpayload := sum_outside_put engine (f := fun state =>
    payloadBytes state.deferredPayloadBytesById) (fun _ => rfl) hgroup hnot
  have hpayloadState : payloadBytes state.deferredPayloadBytesById =
      payloadBytes (retained groupId) := rfl
  refine ⟨h.unhalted, ?_, ?_, ?_⟩
  · intro other hother hread
    rcases mem_of_mem_put hother with rfl | hmem
    · exact ⟨⟨rfl, hfold, fun hbounded => hfold ▸ hwithin hbounded⟩, hfit⟩
    · by_cases hsame : other.groupId = groupId
      · -- The entry that was there has been replaced.
        have hget := KeyedTable.mem_rows_iff.mp hother
        rw [Engine.put, KeyedTable.get?_upsert, if_pos (hgroup.trans hsame.symm)] at hget
        cases hget
        exact ⟨⟨rfl, hfold, fun hbounded => hfold ▸ hwithin hbounded⟩, hfit⟩
      · exact h.groups other hmem (by simp [hsame, hread])
  · show _ = ((engine.put state).deferredPeel.rows.map (outside groupIds engine.charge)).sum
    rw [hsum, ← h.total, charge, hgroup, deferredPeelSweepIsBlocked, (h.unhalted groupId).1,
      Bool.or_false]
    split
    · rfl
    · refine saturatingAdd_eq ?_
      -- What is charged has been retained.
      have hle : accountBytes ≤ (engine.deferredPeel.rows.map (outside (groupId :: groupIds)
          fun state => payloadBytes state.deferredPayloadBytesById)).sum := by
        rw [h.total]
        refine sum_le_sum fun other hother => ?_
        unfold outside
        split
        · exact le_rfl
        · rename_i hread
          exact charge_le (h.groups other hother hread).1
      omega
  · show ((engine.put state).deferredPeel.rows.map _).sum + _ ≤ _
    omega

variable {storage : Storage}

theorem reconstruct_counting {retained : GroupId → PayloadBytesById} {groupIds : List GroupId}
    (hnodup : groupIds.Nodup)
    (hdeferred : ∀ g ∈ groupIds, storage.listDeferred g = .ok (retained g))
    (hfit : ∀ g ∈ groupIds, (retained g).rows.length ≤ usizeMax) {engine : Engine}
    {accountBytes : ℕ} (hwithin : bounded → ∀ g ∈ groupIds,
      (retained g).rows.length ≤ engine.deferredPeelRowLimit ∧
        payloadBytes (retained g) ≤ engine.deferredPeelGroupByteLimit)
    (h : Counting retained bounded groupIds engine accountBytes) :
    ∃ engine' accountBytes', reconstruct storage groupIds engine accountBytes =
        (engine', .ok accountBytes') ∧ Counting retained bounded [] engine' accountBytes' := by
  induction groupIds generalizing engine accountBytes with
  | nil => exact ⟨engine, accountBytes, rfl, h⟩
  | cons groupId groupIds ih =>
    obtain ⟨hnot, hnodup⟩ := nodup_cons.mp hnodup
    rw [reconstruct, hdeferred groupId mem_cons_self]
    rw [forall_mem_cons] at hfit
    exact ih hnodup (fun g hg => hdeferred g (mem_cons_of_mem _ hg)) hfit.2
      (fun hbounded g hg => hwithin hbounded g (mem_cons_of_mem _ hg))
      (h.read hnot (fun hbounded => hwithin hbounded groupId mem_cons_self) hfit.1)

/-- **The reconstruction** starts with exact counters. -/
theorem Opens.exact {groupIds : KeyedTable (id : GroupId → GroupId)}
    {retained : GroupId → PayloadBytesById} (h : engine.Opens storage groupIds retained) :
    (engine.ensurePeelDeferredUsageInitialized storage).1.Exact
      (engine.OpensWithin groupIds retained) := by
  have hnodup : groupIds.rows.Nodup := by simpa using groupIds.nodup
  have hzero : ∀ f : DeferredPeelGroupState → ℕ,
      (∀ state ∈ engine.deferredPeel.rows, state.groupId ∉ groupIds.rows → f state = 0) →
        (engine.deferredPeel.rows.map (outside groupIds.rows f)).sum = 0 := by
    intro f hf
    refine sum_eq_zero fun value hvalue => ?_
    obtain ⟨state, hstate, rfl⟩ := mem_map.mp hvalue
    unfold outside
    split
    · rfl
    · rename_i hother
      exact hf state hstate hother
  have hstart : Counting retained (engine.OpensWithin groupIds retained) groupIds.rows
      engine 0 := by
    refine ⟨h.unhalted, ?_, (hzero _ ?_).symm, ?_⟩
    · intro state hstate hother
      obtain ⟨hrows, hbytes, hempty⟩ := h.others state hstate hother
      refine ⟨⟨?_, ?_, fun _ => ?_⟩, ?_⟩
      · rw [hrows, hempty]; rfl
      · rw [hbytes, hempty]; rfl
      · rw [hrows, hbytes]; exact ⟨Nat.zero_le _, Nat.zero_le _⟩
      · rw [hempty]; exact Nat.zero_le _
    · intro state hstate hother
      rw [charge, (h.others state hstate hother).2.1, ite_self]
    · rw [hzero _ fun state hstate hother => by rw [(h.others state hstate hother).2.2]; rfl,
        Nat.zero_add]
      exact h.bytes_fit
  obtain ⟨engine', accountBytes, hread, hcounting⟩ :=
    reconstruct_counting hnodup h.deferred h.rows_fit id hstart
  have houtside : ∀ f : DeferredPeelGroupState → ℕ, outside [] f = f := fun f => rfl
  have heq : (engine.ensurePeelDeferredUsageInitialized storage).1 =
      { engine' with deferredPeelAccount := ⟨accountBytes, true⟩ } := by
    simp only [ensurePeelDeferredUsageInitialized, h.uncounted, Bool.false_eq_true, if_false,
      h.groups, hread]
  have hfits := hcounting.fits
  have htotal := hcounting.total
  rw [houtside] at hfits htotal
  rw [heq]
  refine ⟨rfl, hcounting.unhalted, fun state hstate => ?_, htotal, hfits, fun state hstate => ?_⟩
  · exact (hcounting.groups state hstate not_mem_nil).1
  · exact (hcounting.groups state hstate not_mem_nil).2

/-! ### Runs -/

/-- The operations of a run.  A write is the admission, and the note of the row if it was
admitted. -/
inductive Op where
  | write (groupId : GroupId) (id : MessageId) (payloadBytes : ℕ)
  | retire (groupId : GroupId) (id : MessageId)
  | refresh (groupId : GroupId) (records : PayloadBytesById)
  | enter (groupId : GroupId) (reason : GroupHydrationQuarantineReason)
  | leave (groupId : GroupId)

def write (engine : Engine) (storage : Storage) (groupId : GroupId) (id : MessageId)
    (payloadBytes : ℕ) : Engine :=
  match engine.hasPeelDeferredCapacity storage groupId ((engine.entry groupId).retained id)
      payloadBytes with
  | (engine, .ok true) => engine.notePeelDeferredRowPersisted groupId id payloadBytes
  | (engine, _) => engine

def step (storage : Storage) (engine : Engine) : Op → Engine
  | .write groupId id payloadBytes => engine.write storage groupId id payloadBytes
  | .retire groupId id => engine.notePeelDeferredRowRetiredById groupId id
  | .refresh groupId records => engine.refreshPeelDeferredGroupUsage groupId records
  | .enter groupId reason => engine.enterHydrationQuarantine groupId reason
  | .leave groupId => (engine.leaveHydrationQuarantine groupId).1

/-- A group is refreshed outside a quarantine and with the rows it retains, and all that is
retained can be counted. -/
def Allowed (storage : Storage) (engine : Engine) : Op → Prop
  | .write groupId id payloadBytes => (engine.write storage groupId id payloadBytes).Fits
  | .refresh groupId records => engine.isQuarantined groupId = false ∧
      records.rows.Perm (engine.entry groupId).deferredPayloadBytesById.rows
  | .retire _ _ | .enter _ _ | .leave _ => True

/-- No row is retired inside a quarantine. -/
def RetiresLive (engine : Engine) : Op → Prop
  | .retire groupId id => ((engine.entry groupId).retained id).isSome →
      engine.isQuarantined groupId = false
  | .write _ _ _ | .refresh _ _ | .enter _ _ | .leave _ => True

/-- Filing the entry of a group changes nothing that is counted. -/
theorem Exact.filed (h : engine.Exact bounded) (groupId : GroupId) :
    (engine.put (engine.entry groupId)).Exact bounded := by
  refine h.put (h.entry groupId) (h.fits.put ?_ ?_) ?_
  · rw [groupId_entry]
  · rw [groupId_entry]
  · rw [groupId_entry]

theorem entry_filed (engine : Engine) (groupId : GroupId) :
    (engine.put (engine.entry groupId)).entry groupId = engine.entry groupId := by
  refine entry_of_get? ?_
  rw [Engine.put, KeyedTable.get?_upsert, if_pos groupId_entry]

/-- A write is refused, or it fits into the group and into the account. -/
theorem write_cases (h : engine.Exact bounded) (storage : Storage) (groupId : GroupId)
    (id : MessageId) (bytes : ℕ) :
    engine.write storage groupId id bytes = engine.put (engine.entry groupId) ∨
      engine.write storage groupId id bytes =
          (engine.put (engine.entry groupId)).notePeelDeferredRowPersisted groupId id bytes ∧
        (engine.entry groupId).hasCapacity
            (if ((engine.entry groupId).retained id).isNone then 1 else 0)
            (bytes - ((engine.entry groupId).retained id).getD 0)
            engine.deferredPeelRowLimit engine.deferredPeelGroupByteLimit = true ∧
        (bytes - ((engine.entry groupId).retained id).getD 0 = 0 ∨
          engine.isQuarantined groupId = true ∨
          saturatingAdd engine.deferredPeelAccount.bytes
              (bytes - ((engine.entry groupId).retained id).getD 0) ≤
            engine.deferredPeelAccountByteLimit) := by
  have hensure : engine.ensurePeelDeferredUsageInitialized storage = (engine, .ok ()) := by
    rw [ensurePeelDeferredUsageInitialized, if_pos h.counted]
  unfold write hasPeelDeferredCapacity
  simp only [hensure, h.sweepIsBlocked, Bool.not_not]
  split
  · rename_i heq
    obtain ⟨rfl, hok⟩ := Prod.mk.inj heq
    simp only [Except.ok.injEq, Bool.and_eq_true, Bool.or_eq_true, beq_iff_eq,
      decide_eq_true_eq, or_assoc] at hok
    exact .inr ⟨rfl, hok⟩
  · rename_i heq
    obtain ⟨rfl, -⟩ := Prod.mk.inj heq
    exact .inl rfl

theorem Exact.write (h : engine.Exact bounded) {storage : Storage} {id : MessageId} {bytes : ℕ}
    (hfits : (engine.write storage groupId id bytes).Fits) :
    (engine.write storage groupId id bytes).Exact bounded := by
  rcases write_cases h storage groupId id bytes with hrefused | ⟨hadmitted, hcapacity, -⟩
  · rw [hrefused]
    exact h.filed groupId
  · rw [hadmitted] at hfits ⊢
    refine (h.filed groupId).persisted ?_ hfits
    rw [entry_filed]
    exact hcapacity

/-- The account limit bounds what a write may raise the total to. -/
theorem Exact.write_le (h : engine.Exact bounded) (storage : Storage) (groupId : GroupId)
    (id : MessageId) (bytes : ℕ) :
    (engine.write storage groupId id bytes).deferredPeelAccount.bytes ≤
      max engine.deferredPeelAccount.bytes engine.deferredPeelAccountByteLimit := by
  rcases write_cases h storage groupId id bytes with hrefused | ⟨hadmitted, -, haccount⟩
  · rw [hrefused]
    exact le_max_left _ _
  · rw [hadmitted, notePeelDeferredRowPersisted_eq (h.filed groupId), entry_filed]
    change (if engine.isQuarantined groupId then engine.deferredPeelAccount.bytes else
      saturatingAdd (engine.deferredPeelAccount.bytes -
        ((engine.entry groupId).retained id).getD 0) bytes) ≤ _
    split
    · exact le_max_left _ _
    · rename_i hquarantined
      have hle := h.charge_entry_le groupId
      have hold := Exact.retained_le (h.entry groupId) id
      rw [charge, groupId_entry, if_neg hquarantined] at hle
      generalize ((engine.entry groupId).retained id).getD 0 = previous at *
      rcases haccount with hsmaller | hblocked | hgrown
      · refine le_max_of_le_left (le_trans (min_le_left _ _) ?_)
        omega
      · exact absurd hblocked hquarantined
      · by_cases hless : bytes ≤ previous
        · refine le_max_of_le_left (le_trans (min_le_left _ _) ?_)
          omega
        · refine le_max_of_le_right (le_trans (le_of_eq ?_) hgrown)
          unfold saturatingAdd
          congr 1
          omega

/-- One operation of a run. -/
theorem Exact.step (h : engine.Exact bounded) (op : Op) (hallowed : Allowed storage engine op)
    (hlive : RetiresLive engine op) : (Engine.step storage engine op).Exact bounded := by
  cases op with
  | write groupId id payloadBytes => exact h.write hallowed
  | retire groupId id => exact h.retired hlive
  | refresh groupId records => exact h.refresh hallowed.1 hallowed.2
  | enter groupId reason => exact h.enter reason
  | leave groupId => exact h.leave

theorem sum_charge (engine : Engine) (rows : List DeferredPeelGroupState) :
    (rows.map engine.charge).sum =
      ((rows.filter fun state => !engine.isQuarantined state.groupId).map
        DeferredPeelGroupState.deferredBytes).sum := by
  induction rows with
  | nil => rfl
  | cons state rows ih =>
    rw [map_cons, sum_cons, ih, filter_cons, charge]
    cases engine.isQuarantined state.groupId with
    | true => simp
    | false => simp

end Engine

open Engine

/-- **The accounting of deferred peels.**  As long as no row is retired inside a quarantine, the
counters of every group are those of the rows it retains, and within its limits if they were when
the engine opened; the total of the account is the sum over the groups that are not quarantined,
and no write raises it above the limit of the account. -/
theorem accounting_exact (engine : Engine) (storage : Storage)
    (groupIds : KeyedTable (id : GroupId → GroupId)) (retained : GroupId → PayloadBytesById)
    (hopens : engine.Opens storage groupIds retained) (ops : List Op)
    (hrun : Runs.Guarded (Engine.step storage)
      (fun engine op => Allowed storage engine op ∧ RetiresLive engine op)
      (engine.ensurePeelDeferredUsageInitialized storage).1 ops) :
    let final := ops.foldl (Engine.step storage)
      (engine.ensurePeelDeferredUsageInitialized storage).1
    (∀ state ∈ final.deferredPeel.rows,
      state.deferredRows = state.deferredPayloadBytesById.rows.length ∧
      state.deferredBytes =
        (state.deferredPayloadBytesById.rows.map DeferredMessageMetadata.payloadLen).sum ∧
      (engine.OpensWithin groupIds retained → state.deferredRows ≤ final.deferredPeelRowLimit ∧
        state.deferredBytes ≤ final.deferredPeelGroupByteLimit)) ∧
    final.deferredPeelAccount.bytes =
      ((final.deferredPeel.rows.filter fun state => !final.isQuarantined state.groupId).map
        DeferredPeelGroupState.deferredBytes).sum ∧
    ∀ groupId id payloadBytes,
      (final.write storage groupId id payloadBytes).deferredPeelAccount.bytes ≤
        max final.deferredPeelAccount.bytes final.deferredPeelAccountByteLimit := by
  intro final
  have hexact : final.Exact (engine.OpensWithin groupIds retained) :=
    hrun.invariant (I := fun current : Engine => current.Exact (engine.OpensWithin _ _))
      (fun _ op h hop => h.step op hop.1 hop.2) hopens.exact
  refine ⟨fun state hstate => ?_, ?_, hexact.write_le storage⟩
  · obtain ⟨hrows, hbytes, hwithin⟩ := hexact.groups state hstate
    exact ⟨hrows, hbytes, hwithin⟩
  · rw [hexact.total, sum_charge]

/-! ### Two groups, one of them quarantined -/

namespace TwoGroups

def engine : Engine where
  deferredPeel := KeyedTable.empty
  deferredPeelAccount := ⟨0, false⟩
  quarantinedGroups := KeyedTable.empty
  isUnrecoverable _ := false
  storedUnrecoverable _ := false
  deferredPeelRowLimit := 4
  deferredPeelGroupByteLimit := 20
  deferredPeelAccountByteLimit := 15

def storage : Storage where
  listGroups := .ok KeyedTable.empty
  listDeferred _ := .ok KeyedTable.empty

def start : Engine := (engine.ensurePeelDeferredUsageInitialized storage).1

theorem opens : engine.Opens storage KeyedTable.empty fun _ => KeyedTable.empty where
  uncounted := rfl
  unhalted _ := ⟨rfl, rfl⟩
  groups := rfl
  deferred _ _ := rfl
  rows_fit _ _ := by decide
  bytes_fit := by decide
  others _ h := absurd h not_mem_nil

def drifting : List Op :=
  [.write [1] [1] 10, .enter [1] .openMlsLoadFailed, .write [2] [2] 10, .retire [1] [1],
    .write [2] [3] 10]

def drifted : Engine := drifting.foldl (Engine.step storage) start

/-- The row of the quarantined group is taken off a total that no longer has it.  The account then
counts 10 of the 20 bytes of the other group, and has admitted more than its 15. -/
theorem retire_in_quarantine_drifts :
    engine.Opens storage KeyedTable.empty (fun _ => KeyedTable.empty) ∧
    Runs.Guarded (Engine.step storage) (Allowed storage) start drifting ∧
    drifted.deferredPeelAccount.bytes = 10 ∧
    ((drifted.deferredPeel.rows.filter fun state => !drifted.isQuarantined state.groupId).map
      DeferredPeelGroupState.deferredBytes).sum = 20 ∧
    drifted.deferredPeelAccountByteLimit = 15 := by
  refine ⟨opens, ?_, by decide, by decide, rfl⟩
  exact ⟨⟨by decide, by decide⟩, trivial, ⟨by decide, by decide⟩, trivial,
    ⟨by decide, by decide⟩, trivial⟩

def lifting : List Op :=
  [.write [1] [1] 10, .enter [1] .openMlsLoadFailed, .write [2] [2] 10, .leave [1],
    .retire [1] [1]]

def lifted : Engine := lifting.foldl (Engine.step storage) start

/-- The quarantine is lifted before the row is retired. -/
theorem retired_after_quarantine :
    lifted.deferredPeelAccount.bytes = 10 ∧
    lifted.deferredPeelAccount.bytes =
      ((lifted.deferredPeel.rows.filter fun state => !lifted.isQuarantined state.groupId).map
        DeferredPeelGroupState.deferredBytes).sum := by
  have hrun : Runs.Guarded (Engine.step storage)
      (fun engine op => Allowed storage engine op ∧ RetiresLive engine op) start lifting :=
    ⟨⟨⟨by decide, by decide⟩, trivial⟩, ⟨trivial, trivial⟩, ⟨⟨by decide, by decide⟩, trivial⟩,
      ⟨trivial, trivial⟩, ⟨trivial, fun _ => by decide⟩, trivial⟩
  exact ⟨by decide, (accounting_exact engine storage KeyedTable.empty
    (fun _ => KeyedTable.empty) opens lifting hrun).2.1⟩

end TwoGroups

end DeferredPeel

end Mdk
