/-
Armed epoch-gap recoveries, `crates/marmot-app/src/client/sync.rs`, and the table they are kept in.

An intent maps groups to the epochs they are stalled at.  It is owned in memory, by the pending
intent, by the queue or by the execution that serves it, and its rows are written to a table that
outlives the process.  Writes to the table succeed, and no group is terminal.

* `Client` and its operations, under the names of the source;
* `Act` — an arm, a step of an execution, or the death of the process;
* `armed_recoveries_are_kept` — what is armed is held until it is served, exactly if no failed read
  and no death of the process finds a row missing that its execution has cleared.
-/
import Mdk.EngineState
import Mdk.KeyedTable
import Mdk.Runs

namespace Mdk

namespace BackfillIntents

open List

/-- Groups with their stalled epochs: a `PendingEpochBackfill`, or the rows of the table. -/
abbrev Intents := KeyedTable (Prod.fst : GroupId × ℕ → GroupId)

def groups (intents : Intents) : List GroupId := intents.rows.map Prod.fst

/-- An older arm does not regress a newer stalled epoch. -/
def raise (intents : Intents) (intent : GroupId × ℕ) : Intents :=
  intents.upsert (intent.1, (intents.get? intent.1).elim intent.2 fun row => max row.2 intent.2)

def armEpochBackfillIntents (table : Intents) (intents : List (GroupId × ℕ)) : Intents :=
  intents.foldl raise table

/-- Only the exact epochs are consumed. -/
def clearEpochBackfillIntents (table : Intents) (intents : List (GroupId × ℕ)) : Intents :=
  intents.foldl (fun table intent =>
    if table.get? intent.1 = some intent then table.erase intent.1 else table) table

/-- An intent that is being served, and whether its rows are cleared. -/
structure Execution where
  pending : Intents
  cleared : Bool
deriving DecidableEq

structure Client where
  pendingEpochBackfill : Option Intents
  queuedEpochBackfills : List Intents
  execution : Option Execution
  table : Intents
deriving DecidableEq

namespace Client

variable (client : Client)

def owners : List Intents := client.pendingEpochBackfill.toList ++ client.queuedEpochBackfills

def Holds (group : GroupId) : Prop := ∃ owner ∈ client.owners, group ∈ groups owner

instance (group : GroupId) : Decidable (client.Holds group) :=
  inferInstanceAs (Decidable (∃ owner ∈ client.owners, group ∈ groups owner))

/-- `apply_backfill_decision`, for a decision that arms. -/
def applyBackfillDecision (group : GroupId) (stalledEpoch : ℕ) : Client :=
  { client with
    pendingEpochBackfill :=
      some ((client.pendingEpochBackfill.getD .empty).upsert (group, stalledEpoch))
    table := armEpochBackfillIntents client.table [(group, stalledEpoch)] }

def takeNextPendingEpochBackfill : Option (Intents × Client) :=
  match client.pendingEpochBackfill, client.queuedEpochBackfills with
  | some pending, _ => some (pending, { client with pendingEpochBackfill := none })
  | none, next :: rest => some (next, { client with queuedEpochBackfills := rest })
  | none, [] => none

def restoreDeferredEpochBackfill (deferred : Intents) : Client :=
  match client.queuedEpochBackfills with
  | next :: rest => { client with
      pendingEpochBackfill := some next
      queuedEpochBackfills := rest ++ [deferred] }
  | [] => { client with pendingEpochBackfill := some deferred }

def requeueFailedEpochBackfillIntent (failed : Intents) : Client :=
  match client.pendingEpochBackfill with
  | none => { client with pendingEpochBackfill := some failed }
  | some _ => { client with queuedEpochBackfills := client.queuedEpochBackfills ++ [failed] }

/-- With the rows that `run_pending_epoch_backfill` writes next.  `readable` says whether the
epochs of all groups can be read. -/
def beginEpochBackfillExecution (readable : Bool) : Client :=
  match client.takeNextPendingEpochBackfill with
  | none => client
  | some (pending, taken) =>
    if readable then
      { taken with
        execution := some ⟨pending, false⟩
        table := armEpochBackfillIntents taken.table pending.rows }
    else taken.restoreDeferredEpochBackfill pending

/-- Rows of groups that have a next owner are left to it. -/
def clearEpochBackfillIntent (pending : Intents) : Client :=
  { client with
    execution := some ⟨pending, true⟩
    table := clearEpochBackfillIntents client.table
      (pending.rows.filter fun intent => ¬ client.Holds intent.1) }

/-- An execution has succeeded only if the epochs of all groups could be read after it. -/
def finishEpochBackfillExecution (pending : Intents) (succeeded readable : Bool) : Client :=
  let finished := { client with execution := none }
  if succeeded && readable then finished else finished.requeueFailedEpochBackfillIntent pending

/-- The owner with the newest epoch of the group, the last of several, takes the epoch. -/
def raiseOwner (intent : GroupId × ℕ) : List Intents → List Intents
  | [] => []
  | owner :: rest =>
    match owner.get? intent.1 with
    | none => owner :: raiseOwner intent rest
    | some row =>
      if rest.any fun next => (next.get? intent.1).any (row.2 ≤ ·.2) then
        owner :: raiseOwner intent rest
      else raise owner intent :: rest

def setOwners (owners : List Intents) : Client :=
  match client.pendingEpochBackfill with
  | none => { client with queuedEpochBackfills := owners }
  | some _ => { client with
      pendingEpochBackfill := owners.head?
      queuedEpochBackfills := owners.tail }

/-- A row goes to an owner of its group, or to the intent that is being restored. -/
def restoreIntent (restoring : Client × Intents) (intent : GroupId × ℕ) : Client × Intents :=
  if restoring.1.Holds intent.1 then
    (restoring.1.setOwners (raiseOwner intent restoring.1.owners), restoring.2)
  else (restoring.1, raise restoring.2 intent)

def restorePersistedEpochBackfillIntents (intents : List (GroupId × ℕ)) : Client :=
  let restored := intents.foldl restoreIntent (client, .empty)
  if restored.2.rows = [] then restored.1
  else if restored.1.owners = [] then
    { restored.1 with pendingEpochBackfill := some restored.2 }
  else { restored.1 with
    queuedEpochBackfills := restored.1.queuedEpochBackfills ++ [restored.2] }

/-- A new process has the table only. -/
def restart : Client :=
  Client.restorePersistedEpochBackfillIntents ⟨none, [], none, client.table⟩ client.table.rows

end Client

/-- An execution is a `start`, then a `fail`, or a `confirm` and a `finish`. -/
inductive Act where
  | arm (group : GroupId) (stalledEpoch : ℕ)
  | start (readable : Bool)
  | fail
  | confirm
  | finish (readable : Bool)
  | restart
deriving DecidableEq, Repr

def Client.step (client : Client) : Act → Client
  | .arm group stalledEpoch => client.applyBackfillDecision group stalledEpoch
  | .start readable => if client.execution = none then
      client.beginEpochBackfillExecution readable else client
  | .fail => match client.execution with
    | some ⟨pending, false⟩ => client.finishEpochBackfillExecution pending false true
    | _ => client
  | .confirm => match client.execution with
    | some ⟨pending, false⟩ => client.clearEpochBackfillIntent pending
    | _ => client
  | .finish readable => match client.execution with
    | some ⟨pending, true⟩ => client.finishEpochBackfillExecution pending true readable
    | _ => client
  | .restart => client.restart

/-- A client, with the groups whose recovery is owed, and those armed since the last start. -/
structure Recovery where
  client : Client
  owed : List GroupId
  rearmed : List GroupId
deriving DecidableEq

def Recovery.initial : Recovery := ⟨⟨none, [], none, .empty⟩, [], []⟩

/-- An execution that has succeeded serves its groups, but not what was armed meanwhile. -/
def Recovery.step (recovery : Recovery) (act : Act) : Recovery where
  client := recovery.client.step act
  owed := match act, recovery.client.execution with
    | .arm group _, _ => group :: recovery.owed
    | .finish true, some ⟨pending, true⟩ =>
      recovery.owed.filter fun group => group ∈ recovery.rearmed ∨ group ∉ groups pending
    | _, _ => recovery.owed
  rearmed := match act with
    | .arm group _ => group :: recovery.rearmed
    | .start _ => if recovery.client.execution = none then [] else recovery.rearmed
    | _ => recovery.rearmed

/-- The execution in progress has cleared the row of the group. -/
def Recovery.RowCleared (recovery : Recovery) (group : GroupId) : Prop :=
  ∃ pending, recovery.client.execution = some ⟨pending, true⟩ ∧ group ∈ groups pending ∧
    group ∉ groups recovery.client.table

/-- With cleared rows, the epochs can be read and the process does not die. -/
def Recovery.Undisturbed (recovery : Recovery) : Act → Prop
  | .finish false => ∀ group, ¬ recovery.RowCleared group
  | .restart => ∀ group ∈ recovery.owed, ¬ recovery.RowCleared group
  | _ => True

/-- With no execution in progress, what an owner holds has a row, and what is owed has an owner. -/
def Recovery.Kept (recovery : Recovery) : Prop :=
  recovery.client.execution = none →
    (∀ group, recovery.client.Holds group → group ∈ groups recovery.client.table) ∧
      ∀ group ∈ recovery.owed, recovery.client.Holds group

/-! ### Rows -/

section Rows

variable {table : Intents} {group : GroupId} {intents : List (GroupId × ℕ)}

theorem mem_groups_iff : group ∈ groups table ↔ (table.get? group).isSome := by
  rw [← not_iff_not, Bool.not_eq_true, Option.isSome_eq_false_iff, Option.isNone_iff_eq_none]
  exact KeyedTable.get?_eq_none_iff.symm

theorem mem_groups_upsert {intent : GroupId × ℕ} :
    group ∈ groups (table.upsert intent) ↔ group = intent.1 ∨ group ∈ groups table := by
  rw [mem_groups_iff, mem_groups_iff, KeyedTable.get?_upsert]
  by_cases h : intent.1 = group
  · simp [h]
  · simp [h, Ne.symm h]

theorem mem_groups_raise {intent : GroupId × ℕ} :
    group ∈ groups (raise table intent) ↔ group = intent.1 ∨ group ∈ groups table :=
  mem_groups_upsert

theorem mem_groups_arm :
    group ∈ groups (armEpochBackfillIntents table intents) ↔
      group ∈ groups table ∨ group ∈ intents.map Prod.fst := by
  induction intents generalizing table with
  | nil => simp [armEpochBackfillIntents]
  | cons intent intents ih =>
    refine ih.trans ?_
    rw [mem_groups_raise, map_cons, mem_cons]
    tauto

theorem mem_groups_clear (h : group ∈ groups table) (hnot : group ∉ intents.map Prod.fst) :
    group ∈ groups (clearEpochBackfillIntents table intents) := by
  induction intents generalizing table with
  | nil => exact h
  | cons intent intents ih =>
    rw [map_cons, mem_cons, not_or] at hnot
    refine ih ?_ hnot.2
    dsimp only
    split
    · rw [mem_groups_iff, KeyedTable.get?_erase, if_neg (Ne.symm hnot.1)]
      exact mem_groups_iff.mp h
    · exact h

end Rows

/-! ### Owners -/

section Owners

variable {client taken : Client} {intent : Intents} {group : GroupId}

theorem holds_applyBackfillDecision {armed : GroupId} {epoch : ℕ} :
    (client.applyBackfillDecision armed epoch).Holds group ↔
      group = armed ∨ client.Holds group := by
  unfold Client.Holds Client.owners Client.applyBackfillDecision
  cases client.pendingEpochBackfill with
  | none => simp [mem_groups_upsert, show groups .empty = [] from rfl]
  | some pending => simp [mem_groups_upsert, or_assoc]

/-- What is taken is the pending intent, or the front of the queue. -/
theorem takeNext_spec (h : client.takeNextPendingEpochBackfill = some (intent, taken)) :
    (∀ group, client.Holds group ↔ group ∈ groups intent ∨ taken.Holds group) ∧
      taken.pendingEpochBackfill = none ∧ taken.table = client.table ∧
      taken.execution = client.execution := by
  unfold Client.takeNextPendingEpochBackfill at h
  split at h <;> cases h <;>
    simp [Client.Holds, Client.owners, *]

theorem holds_restoreDeferred (h : client.pendingEpochBackfill = none) :
    (client.restoreDeferredEpochBackfill intent).Holds group ↔
      group ∈ groups intent ∨ client.Holds group := by
  unfold Client.restoreDeferredEpochBackfill Client.Holds Client.owners
  cases client.queuedEpochBackfills with
  | nil => simp [h]
  | cons next rest => simp [h, or_comm, or_left_comm]

theorem holds_requeueFailed :
    (client.requeueFailedEpochBackfillIntent intent).Holds group ↔
      group ∈ groups intent ∨ client.Holds group := by
  unfold Client.requeueFailedEpochBackfillIntent Client.Holds Client.owners
  cases client.pendingEpochBackfill with
  | none => simp
  | some pending => simp [or_comm, or_left_comm]

theorem restoreDeferred_frame (client : Client) (intent : Intents) :
    (client.restoreDeferredEpochBackfill intent).table = client.table ∧
      (client.restoreDeferredEpochBackfill intent).execution = client.execution := by
  unfold Client.restoreDeferredEpochBackfill
  split <;> exact ⟨rfl, rfl⟩

theorem requeueFailed_frame (client : Client) (intent : Intents) :
    (client.requeueFailedEpochBackfillIntent intent).table = client.table ∧
      (client.requeueFailedEpochBackfillIntent intent).execution = client.execution := by
  unfold Client.requeueFailedEpochBackfillIntent
  split <;> exact ⟨rfl, rfl⟩

theorem raiseOwner_spec (row : GroupId × ℕ) (owners : List Intents) :
    (Client.raiseOwner row owners).length = owners.length ∧
      ∀ group, (∃ owner ∈ Client.raiseOwner row owners, group ∈ groups owner) ↔
        ∃ owner ∈ owners, group ∈ groups owner := by
  induction owners with
  | nil => exact ⟨rfl, fun _ => Iff.rfl⟩
  | cons owner rest ih =>
    unfold Client.raiseOwner
    split
    · simp [ih.1, ih.2]
    · rename_i found hfound
      have hmem : row.1 ∈ groups owner := mem_groups_iff.mpr (by rw [hfound]; rfl)
      split
      · simp [ih.1, ih.2]
      · refine ⟨rfl, fun group => ?_⟩
        have hsame : group ∈ groups (raise owner row) ↔ group ∈ groups owner := by
          rw [mem_groups_raise]
          exact ⟨fun h => h.elim (fun heq => heq ▸ hmem) id, .inr⟩
        simp [hsame]

theorem owners_setOwners {owners : List Intents} (h : owners.length = client.owners.length) :
    (client.setOwners owners).owners = owners := by
  unfold Client.setOwners Client.owners at *
  split
  · rename_i hnone
    simp [hnone]
  · rename_i hsome
    cases owners with
    | nil => simp [hsome] at h
    | cons => rfl

theorem setOwners_frame (client : Client) (owners : List Intents) :
    (client.setOwners owners).table = client.table ∧
      (client.setOwners owners).execution = client.execution := by
  unfold Client.setOwners
  split <;> exact ⟨rfl, rfl⟩

/-- Restoring adds the group of the row, and nothing else. -/
theorem restoreIntent_spec (restoring : Client × Intents) (row : GroupId × ℕ) :
    let next := Client.restoreIntent restoring row
    (∀ group, next.1.Holds group ∨ group ∈ groups next.2 ↔
      (restoring.1.Holds group ∨ group ∈ groups restoring.2) ∨ group = row.1) ∧
    next.1.table = restoring.1.table ∧ next.1.execution = restoring.1.execution := by
  intro next
  by_cases h : restoring.1.Holds row.1
  · have hnext : next =
        (restoring.1.setOwners (Client.raiseOwner row restoring.1.owners), restoring.2) := if_pos h
    obtain ⟨hlength, hgroups⟩ := raiseOwner_spec row restoring.1.owners
    have hholds : ∀ group, next.1.Holds group ↔ restoring.1.Holds group := by
      intro group
      rw [hnext, Client.Holds, owners_setOwners hlength]
      exact hgroups group
    refine ⟨fun group => ?_, hnext ▸ setOwners_frame _ _⟩
    rw [hholds, hnext]
    exact ⟨.inl, fun hgroup => hgroup.elim id fun heq => .inl (heq ▸ h)⟩
  · have hnext : next = (restoring.1, raise restoring.2 row) := if_neg h
    refine ⟨fun group => ?_, hnext ▸ ⟨rfl, rfl⟩⟩
    rw [hnext, mem_groups_raise]
    tauto

theorem restore_spec (client : Client) (rows : List (GroupId × ℕ)) :
    let restored := client.restorePersistedEpochBackfillIntents rows
    (∀ group, restored.Holds group ↔ client.Holds group ∨ group ∈ rows.map Prod.fst) ∧
      restored.table = client.table ∧ restored.execution = client.execution := by
  -- What is restored so far is in the owners and in the intent that is not installed yet.
  have hfold : ∀ (rows : List (GroupId × ℕ)) (start : Client × Intents),
      let state := rows.foldl Client.restoreIntent start
      (∀ group, state.1.Holds group ∨ group ∈ groups state.2 ↔
        (start.1.Holds group ∨ group ∈ groups start.2) ∨ group ∈ rows.map Prod.fst) ∧
      state.1.table = start.1.table ∧ state.1.execution = start.1.execution := by
    intro rows
    induction rows with
    | nil => simp
    | cons row rows ih =>
      intro start
      obtain ⟨hholds, htable, hexecution⟩ := restoreIntent_spec start row
      obtain ⟨hholds', htable', hexecution'⟩ := ih (Client.restoreIntent start row)
      refine ⟨fun group => ?_, htable'.trans htable, hexecution'.trans hexecution⟩
      rw [foldl_cons, hholds', hholds, map_cons, mem_cons, or_assoc]
  obtain ⟨hholds, htable, hexecution⟩ := hfold rows (client, .empty)
  intro restored
  refine ⟨fun group => ?_, ?_⟩
  · have hinstalled : restored.Holds group ↔
        (rows.foldl Client.restoreIntent (client, .empty)).1.Holds group ∨
          group ∈ groups (rows.foldl Client.restoreIntent (client, .empty)).2 := by
      unfold restored Client.restorePersistedEpochBackfillIntents Client.Holds
      dsimp only
      split
      · rename_i hnone
        simp [groups, hnone]
      · split
        · rename_i howners
          obtain ⟨hpending, hqueue⟩ := append_eq_nil_iff.mp howners
          simp [Client.owners, hqueue, Option.toList_eq_nil_iff.mp hpending]
        · simp [Client.owners, or_assoc, or_and_right, exists_or]
    rw [hinstalled, hholds]
    simp [show groups .empty = [] from rfl]
  · unfold restored Client.restorePersistedEpochBackfillIntents
    dsimp only
    split
    · exact ⟨htable, hexecution⟩
    · split <;> exact ⟨htable, hexecution⟩

theorem holds_restart : client.restart.Holds group ↔ group ∈ groups client.table := by
  have hnone : ¬ Client.Holds ⟨none, [], none, client.table⟩ group := by
    rintro ⟨_, howner, _⟩
    cases howner
  exact ((restore_spec _ _).1 group).trans (or_iff_right hnone)

end Owners

/-! ### Runs -/

/-- What owners and a draining execution hold has a row, and what is owed is held. -/
structure Recovery.Sound (recovery : Recovery) : Prop where
  rows : ∀ group, recovery.client.Holds group → group ∈ groups recovery.client.table
  draining : ∀ pending, recovery.client.execution = some ⟨pending, false⟩ →
    ∀ group ∈ groups pending, group ∈ groups recovery.client.table
  owed : ∀ group ∈ recovery.owed, recovery.client.Holds group ∨
    ∃ execution ∈ recovery.client.execution, group ∈ groups execution.pending
  rearmed : recovery.client.execution ≠ none →
    ∀ group ∈ recovery.rearmed, recovery.client.Holds group

section Sound

variable {recovery : Recovery} {pending : Intents}

theorem Recovery.Sound.arm (h : recovery.Sound) (group : GroupId) (epoch : ℕ) :
    (recovery.step (.arm group epoch)).Sound where
  rows other hother := by
    refine mem_groups_arm.mpr ?_
    obtain rfl | hheld := holds_applyBackfillDecision.mp hother
    · exact .inr (mem_singleton_self _)
    · exact .inl (h.rows other hheld)
  draining pending hpending other hother :=
    mem_groups_arm.mpr (.inl (h.draining pending hpending other hother))
  owed other hother := by
    obtain rfl | howed := mem_cons.mp hother
    · exact .inl (holds_applyBackfillDecision.mpr (.inl rfl))
    · exact (h.owed other howed).imp_left fun hheld => holds_applyBackfillDecision.mpr (.inr hheld)
  rearmed hexecution other hother := by
    refine holds_applyBackfillDecision.mpr ?_
    exact (mem_cons.mp hother).imp_right (h.rearmed hexecution other)

/-- With no execution, what is owed has an owner. -/
theorem Recovery.Sound.of_idle {client : Client} {owed rearmed : List GroupId}
    (hidle : client.execution = none)
    (hrows : ∀ group, client.Holds group → group ∈ groups client.table)
    (howed : ∀ group ∈ owed, client.Holds group) : Recovery.Sound ⟨client, owed, rearmed⟩ where
  rows := hrows
  draining _ hpending := by cases hidle.symm.trans hpending
  owed group hgroup := .inl (howed group hgroup)
  rearmed hbusy := absurd hidle hbusy

theorem Recovery.Sound.start (h : recovery.Sound) (readable : Bool) :
    (recovery.step (.start readable)).Sound := by
  by_cases hidle : recovery.client.execution = none
  swap
  · -- An execution is under way.
    have hsame : recovery.step (.start readable) = recovery := by
      simp [Recovery.step, Client.step, hidle]
    rwa [hsame]
  have howed : ∀ group ∈ recovery.owed, recovery.client.Holds group := fun group hgroup =>
    (h.owed group hgroup).resolve_right (by simp [hidle])
  have hstep : recovery.step (.start readable) =
      ⟨recovery.client.beginEpochBackfillExecution readable, recovery.owed, []⟩ := by
    simp [Recovery.step, Client.step, hidle]
  rw [hstep]
  unfold Client.beginEpochBackfillExecution
  split
  · exact .of_idle hidle h.rows howed
  · rename_i pending taken htaken
    obtain ⟨hholds, hpending, htable, hexecution⟩ := takeNext_spec htaken
    have hrows : ∀ group, taken.Holds group → group ∈ groups taken.table := fun group hgroup =>
      htable ▸ h.rows group ((hholds group).mpr (.inr hgroup))
    split
    · refine ⟨fun group hgroup => mem_groups_arm.mpr (.inl (hrows group hgroup)), ?_, ?_,
        fun _ _ hnil => by cases hnil⟩
      · intro served hserved group hgroup
        cases hserved
        exact mem_groups_arm.mpr (.inr hgroup)
      · intro group hgroup
        refine ((hholds group).mp (howed group hgroup)).symm.imp_right fun hmem => ?_
        exact ⟨_, rfl, hmem⟩
    · have hsame : ∀ group, (taken.restoreDeferredEpochBackfill pending).Holds group ↔
          recovery.client.Holds group := fun group =>
        (holds_restoreDeferred hpending).trans (hholds group).symm
      obtain ⟨hkept, hstill⟩ := restoreDeferred_frame taken pending
      refine .of_idle (hstill.trans (hexecution.trans hidle)) (fun group hgroup => ?_)
        fun group hgroup => (hsame group).mpr (howed group hgroup)
      rw [hkept, htable]
      exact h.rows group ((hsame group).mp hgroup)

/-- An execution gives its intent back, which has its rows still. -/
theorem Recovery.Sound.requeue {cleared : Bool} {rearmed : List GroupId} (h : recovery.Sound)
    (hexecution : recovery.client.execution = some ⟨pending, cleared⟩)
    (hrows : ∀ group ∈ groups pending, group ∈ groups recovery.client.table) :
    Recovery.Sound ⟨Client.requeueFailedEpochBackfillIntent
      { recovery.client with execution := none } pending, recovery.owed, rearmed⟩ := by
  obtain ⟨hkept, hstill⟩ := requeueFailed_frame { recovery.client with execution := none } pending
  refine .of_idle hstill (fun group hgroup => ?_) fun group hgroup => ?_
  · exact hkept ▸ (holds_requeueFailed.mp hgroup).elim (hrows group) (h.rows group)
  · refine holds_requeueFailed.mpr ((h.owed group hgroup).symm.imp_left ?_)
    rintro ⟨execution, hmem, hserved⟩
    cases hexecution.symm.trans hmem
    exact hserved

theorem Recovery.Sound.fail (h : recovery.Sound) : (recovery.step .fail).Sound := by
  unfold Recovery.step Client.step
  dsimp only
  split
  · rename_i pending hexecution
    exact h.requeue hexecution (h.draining pending hexecution)
  · exact h

theorem Recovery.Sound.confirm (h : recovery.Sound) : (recovery.step .confirm).Sound := by
  unfold Recovery.step Client.step
  dsimp only
  split
  · rename_i pending hexecution
    refine ⟨fun group hgroup => ?_, fun _ hcleared => (by cases hcleared), fun group hgroup => ?_,
      fun _ => h.rearmed (by simp [hexecution])⟩
    · refine mem_groups_clear (h.rows group hgroup) fun hmem => ?_
      obtain ⟨intent, hintent, rfl⟩ := mem_map.mp hmem
      exact of_decide_eq_true (mem_filter.mp hintent).2 hgroup
    · refine (h.owed group hgroup).imp_right ?_
      rintro ⟨execution, hmem, hserved⟩
      cases hexecution.symm.trans hmem
      exact ⟨_, rfl, hserved⟩
  · exact h

theorem Recovery.Sound.unread (h : recovery.Sound)
    (hrows : ∀ group, ¬ recovery.RowCleared group) : (recovery.step (.finish false)).Sound := by
  unfold Recovery.step Client.step
  dsimp only
  split
  · rename_i pending hexecution
    refine h.requeue hexecution fun group hmem => ?_
    by_contra hmissing
    exact hrows group ⟨pending, hexecution, hmem, hmissing⟩
  · exact h

/-- What a succeeded execution has not served has another owner. -/
theorem Recovery.Sound.finish (h : recovery.Sound) : (recovery.step (.finish true)).Sound := by
  unfold Recovery.step Client.step
  dsimp only
  split
  · rename_i pending hexecution
    refine .of_idle rfl h.rows fun group hgroup => ?_
    rw [hexecution] at hgroup
    obtain ⟨howed, hunserved⟩ := mem_filter.mp hgroup
    obtain hrearmed | hnot := of_decide_eq_true hunserved
    · exact h.rearmed (by simp [hexecution]) group hrearmed
    · refine (h.owed group howed).resolve_right ?_
      rintro ⟨execution, hmem, hserved⟩
      cases hexecution.symm.trans hmem
      exact hnot hserved
  · rename_i hnot
    have howed : (recovery.step (.finish true)).owed = recovery.owed := by
      unfold Recovery.step
      dsimp only
      split <;> simp_all
    exact ⟨h.rows, h.draining, fun group hgroup => h.owed group (howed ▸ hgroup), h.rearmed⟩

/-- A new process holds what has a row. -/
theorem Recovery.Sound.restart (h : recovery.Sound)
    (hcleared : ∀ group ∈ recovery.owed, ¬ recovery.RowCleared group) :
    (recovery.step .restart).Sound := by
  have htable : recovery.client.restart.table = recovery.client.table := (restore_spec _ _).2.1
  refine .of_idle (restore_spec _ _).2.2 (fun group hgroup => htable ▸ holds_restart.mp hgroup)
    fun group hgroup => holds_restart.mpr ((h.owed group hgroup).elim (h.rows group) ?_)
  rintro ⟨⟨pending, cleared⟩, hexecution, hserved⟩
  cases cleared with
  | false => exact h.draining pending hexecution group hserved
  | true =>
    by_contra hmissing
    exact hcleared group hgroup ⟨pending, hexecution, hserved, hmissing⟩

theorem Recovery.Sound.step (h : recovery.Sound) (act : Act) (hact : recovery.Undisturbed act) :
    (recovery.step act).Sound := by
  cases act with
  | arm group epoch => exact h.arm group epoch
  | start readable => exact h.start readable
  | fail => exact h.fail
  | confirm => exact h.confirm
  | finish readable =>
    cases readable with
    | false => exact h.unread hact
    | true => exact h.finish
  | restart => exact h.restart hact

theorem Recovery.Sound.kept (h : recovery.Sound) : recovery.Kept := by
  refine fun hidle => ⟨h.rows, fun group hgroup => (h.owed group hgroup).resolve_right ?_⟩
  rintro ⟨execution, hmem, -⟩
  cases hidle.symm.trans hmem

/-- Where a row is missing, a failed read leaves an owner without it, and a new process does not
find it. -/
theorem Recovery.undisturbed_of_kept {act : Act} (h : (recovery.step act).Kept) :
    recovery.Undisturbed act := by
  cases act with
  | arm | start | fail | confirm => trivial
  | finish readable =>
    cases readable with
    | true => trivial
    | false =>
      rintro group ⟨pending, hexecution, hmem, hmissing⟩
      have hstep : (recovery.step (.finish false)).client =
          Client.requeueFailedEpochBackfillIntent { recovery.client with execution := none }
            pending := by
        simp [Recovery.step, Client.step, hexecution, Client.finishEpochBackfillExecution]
      obtain ⟨hkept, hstill⟩ :=
        requeueFailed_frame { recovery.client with execution := none } pending
      rw [Recovery.Kept, hstep] at h
      refine hmissing (hkept ▸ (h hstill).1 group ?_)
      exact holds_requeueFailed.mpr (.inl hmem)
  | restart =>
    rintro group howed ⟨pending, -, -, hmissing⟩
    exact hmissing (holds_restart.mp ((h (restore_spec _ _).2.2).2 group howed))

end Sound

/-- **Armed recoveries are kept** until they are served, along exactly the runs in which no failed
read and no death of the process finds a row cleared that is still needed. -/
theorem armed_recoveries_are_kept (acts : List Act) :
    Runs.Guarded Recovery.step Recovery.Undisturbed .initial acts ↔
      ∀ before, before <+: acts → (before.foldl Recovery.step .initial).Kept := by
  have hinitial : Recovery.initial.Sound := by
    refine .of_idle rfl (fun _ hheld => ?_) (by decide)
    obtain ⟨_, howner, _⟩ := hheld
    cases howner
  exact Runs.guarded_iff (fun _ act h hact => h.step act hact) (fun _ h => h.kept)
    (fun _ _ _ h => Recovery.undisturbed_of_kept h) hinitial

namespace Sample

/-- The epoch cannot be read when the replay is confirmed. -/
def unread : List Act := [.arm [1] 5, .start true, .confirm, .finish false]

theorem unread_is_forgotten :
    ((unread.foldl Recovery.step .initial).client.execution = none ∧
      (unread.foldl Recovery.step .initial).client.Holds [1] ∧
      groups (unread.foldl Recovery.step .initial).client.table = []) ∧
    ([1] : GroupId) ∈ ((unread ++ [Act.restart]).foldl Recovery.step .initial).owed ∧
      ¬ ((unread ++ [Act.restart]).foldl Recovery.step .initial).client.Holds [1] := by
  decide

end Sample

end BackfillIntents

end Mdk
