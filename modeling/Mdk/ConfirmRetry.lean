/-
A failed confirmation can be made again.

A confirmation is made of the anchor of the old epoch, one transaction, the anchor of
the new epoch and the in-memory transition.  Each of them may fail, and the next call
starts over.  `Attempted` says what any number of failed calls can leave: the engine as
it was, the first anchor partly made, or the transaction committed and the second
anchor partly made.  From each of these the next call ends where one call without
failures would have.

There is one exception.  Once the transaction is committed the queued intent of the
publication is deleted, and deleting it again is an error: such a publication can not
be confirmed any more.

* `attempted_step` — one more failed call.
-/
import Mdk.AnchorRetention

namespace Mdk

open StoreProgram StoreProgram.Program EngineStorage
open Std (ExtTreeMap)

variable {G C : Type}

/-! ### The transaction is made of storage calls -/

section Calls

variable (env : PublishEnv G C) (groupId : GroupId) (mlsGroup : G) {fanout : Option OutboundFanout}

theorem rewriteRecord_calls (keepMembers : Bool) :
    StorageCalls fanout (rewriteRecord env keepMembers groupId mlsGroup) :=
  (StorageCalls.query _).mapError.bind fun _ => (StorageCalls.putGroup _ _).mapError

theorem cacheFromStagedCommit_calls (staged : C) :
    StorageCalls fanout (cacheFromStagedCommit env groupId staged) := by
  refine (StorageCalls.query _).mapError.bind fun record => StorageCalls.forM (fun leaf => ?_) _
  refine (StorageCalls.ofExcept _).bind fun leafProfile => ?_
  have hcache : StorageCalls fanout (do
      let id ← ofExcept leaf.identity
      fromStorage (EngineStorage.saveMemberCapabilities groupId id leaf.capabilities) :
        EngineProgram G PublishError Unit) :=
    (StorageCalls.ofExcept _).bind fun _ => (StorageCalls.saveMemberCapabilities _ _ _).mapError
  exact .ite ((StorageCalls.raise _).bind fun _ => hcache) hcache

theorem cacheSelfCapabilities_calls :
    StorageCalls fanout (cacheSelfCapabilities env groupId mlsGroup) := by
  unfold cacheSelfCapabilities
  cases env.ownLeaf mlsGroup with
  | none => exact .pure _
  | some leaf =>
    refine (StorageCalls.ofExcept _).bind fun leafProfile =>
      (StorageCalls.ofExcept _).bind fun groupProfile => ?_
    have hsave : ∀ leafId, StorageCalls fanout
        (fromStorage (EngineStorage.saveMemberCapabilities groupId leafId leaf.capabilities) :
          EngineProgram G PublishError Unit) :=
      fun _ => (StorageCalls.saveMemberCapabilities _ _ _).mapError
    have hcache : StorageCalls fanout (do
        let leafId ← ofExcept leaf.identity
        if leafId ≠ env.selfId then
          raise (.backend "own_leaf_node identity does not match engine self_id")
        fromStorage (EngineStorage.saveMemberCapabilities groupId leafId leaf.capabilities) :
          EngineProgram G PublishError Unit) :=
      (StorageCalls.ofExcept _).bind fun leafId =>
        StorageCalls.ite ((StorageCalls.raise _).bind fun _ => hsave leafId) (hsave leafId)
    exact .ite ((StorageCalls.raise _).bind fun _ => hcache) hcache

variable (messageId : String)

theorem ownCommitCheckpointId_calls :
    StorageCalls fanout (ownCommitCheckpointId env messageId) := by
  refine (StorageCalls.query _).mapError.bind fun record =>
    (StorageCalls.ofExcept _).bind fun payload => ?_
  split
  · exact .raise _
  · split
    · exact .raise _
    · exact .ite (StorageCalls.raise _) (.pure _)

theorem markConsumedProposalRecordsProcessed_calls (sourceEpoch : EpochId) (refs : List String) :
    StorageCalls fanout
      (markConsumedProposalRecordsProcessed env mlsGroup groupId sourceEpoch refs) := by
  refine .ite (.pure _) ((StorageCalls.query _).mapError.bind fun records =>
    StorageCalls.forM (fun record => StorageCalls.ite (.pure _) ?_) _)
  split
  · exact .pure _
  · exact .raise _
  · exact .ite (StorageCalls.updateMessageState _ _).mapError (.pure _)

variable {originCommitId : Option String}

theorem transitionStagedInviteWelcome_calls (state : MessageState) (record : MessageRecord) :
    StorageCalls fanout (transitionStagedInviteWelcome env originCommitId state record) := by
  refine (StorageCalls.ofExcept _).bind fun payload => ?_
  cases payload with
  | rawTransport message =>
    exact .ite (StorageCalls.putMessage _).mapError (.pure _)
  | stagedInviteWelcome message stagedOriginCommitId =>
    exact .ite
      (StorageCalls.ite (StorageCalls.putMessage _).mapError
        ((StorageCalls.ofExcept _).bind fun _ => (StorageCalls.putMessage _).mapError))
      (.pure _)
  | outboundWelcome _ => exact .pure _
  | openMlsWire _ => exact .pure _
  | signedOpenMlsWire _ _ _ _ => exact .pure _
  | ownCommitWire _ _ => exact .pure _

theorem transitionStagedInviteWelcomes_calls (sourceEpoch : EpochId) (state : MessageState) :
    StorageCalls fanout
      (transitionStagedInviteWelcomes env groupId sourceEpoch originCommitId state) :=
  (StorageCalls.query _).mapError.bind fun _ => StorageCalls.forM (fun record =>
    StorageCalls.ite (.pure _) (transitionStagedInviteWelcome_calls env _ record)) _

variable {stamp : Option OwnCommitConvergenceStamp}

theorem stampProcessedOwnCommitRecord_calls :
    StorageCalls fanout (stampProcessedOwnCommitRecord env messageId stamp) := by
  cases stamp with
  | none => exact (StorageCalls.updateMessageState _ _).mapError
  | some stamp =>
    exact (StorageCalls.query _).mapError.bind fun _ => (StorageCalls.ofExcept _).bind fun _ =>
      (StorageCalls.ofExcept _).bind fun _ => (StorageCalls.putMessage _).mapError

theorem confirmGroupEvolution_calls :
    StorageCalls fanout (confirmGroupEvolution env messageId) := by
  refine .ite ((StorageCalls.query _).mapError.bind fun evolutions => ?_)
    (.pure _)
  split
  · exact .pure _
  · exact (StorageCalls.putGroupEvolution _).mapError

theorem changeMlsGroup_calls (label : String) (changed : Except String G) :
    StorageCalls fanout (changeMlsGroup label groupId changed) :=
  (StorageCalls.ofExcept _).bind fun _ => (StorageCalls.writeOpenmlsValues _ _).mapError.bind
    fun _ => StorageCalls.pure _

theorem mergeStagedCommit_calls (c : Confirmation) (staged : C) :
    StorageCalls fanout (mergeStagedCommit env c mlsGroup staged) := by
  refine (cacheFromStagedCommit_calls env _ staged).bind fun _ =>
    (StorageCalls.ofExcept _).bind fun stamp => StorageCalls.bind ?_ fun stamp =>
      (markConsumedProposalRecordsProcessed_calls env _ _ _ _).bind fun _ => ?_
  · unfold addCheckpointId
    split
    · exact .pure _
    · exact (ownCommitCheckpointId_calls env _).bind fun _ => StorageCalls.pure _
  · have hmerge : StorageCalls fanout (do
        let merged ← changeMlsGroup "merge_pending: " c.groupId (env.mergePendingCommit mlsGroup)
        ofExcept (env.validateCurrentProfileGroupInvariants merged)
        pure (merged, { stamp with
          resultingEpochAuthenticator := some (env.epochAuthenticator merged) }) :
          EngineProgram G PublishError (G × OwnCommitConvergenceStamp)) :=
      (changeMlsGroup_calls _ _ _).bind fun _ => (StorageCalls.ofExcept _).bind fun _ =>
        StorageCalls.pure _
    exact .ite
      ((transitionStagedInviteWelcomes_calls env _ _ _).bind fun _ => hmerge) hmerge

theorem settleOriginCommit_calls :
    StorageCalls fanout (settleOriginCommit env originCommitId stamp) := by
  unfold settleOriginCommit
  cases originCommitId with
  | none => exact .pure _
  | some messageId =>
    exact (stampProcessedOwnCommitRecord_calls env _).bind fun _ =>
      confirmGroupEvolution_calls env _

theorem settleFanout_calls : StorageCalls fanout (settleFanout fanout : EngineProgram G _ _) := by
  unfold settleFanout
  cases fanout with
  | none => exact .pure _
  | some fanout => exact (StorageCalls.putOutboundFanout fanout).mapError

theorem settleConfirmation_calls [DecidableEq G] (c : Confirmation) :
    StorageCalls c.confirmedFanout (settleConfirmation env c mlsGroup stamp) := by
  refine (rewriteRecord_calls env _ _ _).bind fun _ =>
    (cacheSelfCapabilities_calls env _ _).bind fun _ => StorageCalls.bind ?_ fun _ =>
      (settleOriginCommit_calls env).bind fun _ => StorageCalls.bind ?_ fun _ =>
        settleFanout_calls
  · unfold checkpointOwnCommit
    split
    · exact .pure _
    · exact (StorageCalls.createGroupStateCheckpoint _ _ _).mapError
  · unfold settleQueuedIntent
    split
    · exact .pure _
    · exact (StorageCalls.deleteQueuedOutboundIntent _).mapError

theorem confirmWrites_calls [DecidableEq G] (c : Confirmation) :
    StorageCalls c.confirmedFanout (confirmWrites env c mlsGroup) := by
  unfold confirmWrites
  cases env.pendingCommit mlsGroup with
  | none => exact settleConfirmation_calls env _ c
  | some staged =>
    exact (mergeStagedCommit_calls env _ c staged).bind fun _ => settleConfirmation_calls env _ c

end Calls

/-! ### What the committed transaction leaves -/

/-- The rows of the group mirror the OpenMLS group, and its own leaf is cached. -/
structure GroupSettled (env : PublishEnv G C) (keepMembers : Bool) (mlsGroup : G)
    (rows : GroupRows G) : Prop where
  values : rows.openmlsValues = some mlsGroup
  record : ∃ record, rows.record = some record ∧
    mirrorRecord env keepMembers mlsGroup record = record
  ownLeaf : ∀ leaf, env.ownLeaf mlsGroup = some leaf → ∃ profile, leaf.profile = .ok profile ∧
    env.protocolProfile mlsGroup = .ok profile ∧ leaf.identity = .ok env.selfId ∧
    rows.memberCaps[env.selfId]? = some leaf.capabilities

/-- The origin commit is processed, and its evolution is confirmed. -/
structure OriginSettled (env : PublishEnv G C) (messageId : String) (storage : EngineStorage G) :
    Prop where
  processed : ∃ record, storage.messages.get? messageId = some record ∧ record.state = .processed
  confirmed : env.maintenance = true → ∀ evolution,
    storage.evolutions.rows.find? (fun evolution => evolution.signedMessageId = some messageId) =
      some evolution → evolution.phase = .confirmed

/-- Everything the transaction of the confirmation `c` writes is written. -/
structure ConfirmSettled (env : PublishEnv G C) (c : Confirmation) (mlsGroup : G)
    (storage : EngineStorage G) : Prop where
  noCommit : env.pendingCommit mlsGroup = none
  group : GroupSettled env (c.kind = .disband) mlsGroup (storage.groups c.groupId)
  origin : ∀ messageId, c.originCommitId = some messageId → OriginSettled env messageId storage
  queued : ∀ intent, c.queuedIntent = some intent → storage.queuedOutbound.get? intent.2 = none
  fanout : ∀ fanout, c.confirmedFanout = some fanout →
    storage.fanouts.get? fanout.messageId = some fanout

section Writes

variable (env : PublishEnv G C) (groupId : GroupId) (mlsGroup : G) (keepMembers : Bool)

/-- A record that was mirrored is mirrored to itself. -/
theorem mirrorRecord_idem (record : Group) :
    mirrorRecord env keepMembers mlsGroup (mirrorRecord env keepMembers mlsGroup record) =
      mirrorRecord env keepMembers mlsGroup record := by
  unfold mirrorRecord mirrorAppComponentsIntoRecord requiredCapabilitiesFromGroup
  cases env.groupProfile mlsGroup with
  | error e => cases env.requiredAppComponents mlsGroup <;> cases keepMembers <;> rfl
  | ok profile =>
    cases profile <;> cases env.requiredAppComponents mlsGroup <;> cases keepMembers <;> rfl

/-- The OpenMLS group that is stored. -/
abbrev Stores (groupId : GroupId) (mlsGroup : G) (engine : Engine G) : Prop :=
  (engine.storage.groups groupId).openmlsValues = some mlsGroup

/-- The record of the group mirrors it. -/
abbrev Mirrors (engine : Engine G) : Prop :=
  Stores groupId mlsGroup engine ∧ ∃ record, (engine.storage.groups groupId).record = some record ∧
    mirrorRecord env keepMembers mlsGroup record = record

theorem rewriteRecord_returns :
    Returns (Stores groupId mlsGroup) (rewriteRecord env keepMembers groupId mlsGroup)
      (fun _ => Mirrors env groupId mlsGroup keepMembers) := by
  refine Spec.bind
    (Spec.mapError (query_returns fun engine record hvalues _ => hvalues))
    fun record => Spec.mapError
      (write_returns fun engine storage hvalues hstorage => ?_)
  rw [← Except.ok.inj hstorage]
  simp only [Mirrors, Stores, updateGroup_groups]
  exact ⟨hvalues, _, rfl, mirrorRecord_idem env mlsGroup keepMembers record⟩

theorem cacheSelfCapabilities_returns :
    Returns (Mirrors env groupId mlsGroup keepMembers) (cacheSelfCapabilities env groupId mlsGroup)
      (fun _ engine => GroupSettled env keepMembers mlsGroup (engine.storage.groups groupId)) := by
  unfold cacheSelfCapabilities
  cases hleaf : env.ownLeaf mlsGroup with
  | none =>
    refine Spec.pure _ fun engine hP => ⟨hP.1, hP.2, fun leaf hleaf' => ?_⟩
    rw [hleaf] at hleaf'
    cases hleaf'
  | some leaf =>
    refine Spec.bind Returns.ofExcept fun leafProfile => ?_
    refine Spec.bind Returns.ofExcept fun groupProfile => ?_
    by_cases hprofiles : leafProfile ≠ groupProfile
    · rw [if_pos hprofiles]
      exact Spec.raise _ fun _ _ => trivial
    rw [if_neg hprofiles]
    refine Spec.bind Returns.ofExcept fun leafId => ?_
    by_cases hself : leafId ≠ env.selfId
    · rw [if_pos hself]
      exact Spec.raise _ fun _ _ => trivial
    rw [if_neg hself]
    refine Spec.mapError (write_returns fun engine storage hP hstorage => ?_)
    obtain ⟨hid, hgroup, hleafProfile, hvalues, hrecord⟩ := hP
    rw [← Except.ok.inj hstorage]
    simp only [updateGroup_groups]
    refine ⟨hvalues, hrecord, fun leaf' hleaf' => ?_⟩
    obtain rfl := Option.some.inj (hleaf.symm.trans hleaf')
    rw [not_not] at hprofiles hself
    subst hprofiles hself
    exact ⟨leafProfile, hleafProfile, hgroup, hid, by simp⟩

variable {stamp : Option OwnCommitConvergenceStamp}

/-- A checkpoint is not part of what mirrors the group. -/
theorem checkpointOwnCommit_returns [DecidableEq G] (keepMembers : Bool) (mlsGroup' : G) :
    Returns (fun engine : Engine G =>
        GroupSettled env keepMembers mlsGroup (engine.storage.groups groupId))
      (checkpointOwnCommit env groupId mlsGroup' stamp)
      (fun _ engine => GroupSettled env keepMembers mlsGroup (engine.storage.groups groupId)) := by
  unfold checkpointOwnCommit
  split
  · exact Spec.pure _ fun _ h => h
  · refine Spec.mapError (write_returns fun engine storage h hstorage => ?_)
    split at hstorage
    · cases hstorage
    · split at hstorage
      · split at hstorage
        · obtain rfl := Except.ok.inj hstorage
          exact h
        · cases hstorage
      · rw [← Except.ok.inj hstorage]
        simp only [updateGroup_groups]
        exact ⟨h.values, h.record, h.ownLeaf⟩

variable (messageId : String)

abbrev OriginProcessed (storage : EngineStorage G) : Prop :=
  ∃ record, storage.messages.get? messageId = some record ∧ record.state = .processed

variable {groups : GroupId → GroupRows G}

theorem stampProcessedOwnCommitRecord_returns :
    Returns (fun engine => engine.storage.groups = groups)
      (stampProcessedOwnCommitRecord env messageId stamp)
      (fun _ engine => engine.storage.groups = groups ∧
        OriginProcessed messageId engine.storage) := by
  cases stamp with
  | none =>
    refine Spec.mapError (write_returns fun engine storage h hstorage => ?_)
    split at hstorage
    · rename_i record hrecord
      rw [← Except.ok.inj hstorage]
      obtain rfl := KeyedTable.key_of_get? hrecord
      exact ⟨h, { record with state := .processed }, KeyedTable.get?_upsert_self _ _, rfl⟩
    · cases hstorage
  | some stamp =>
    refine Spec.bind (R := fun record engine => engine.storage.groups = groups ∧
        record.id = messageId)
      (Spec.mapError (query_returns fun engine record h hrecord => ?_))
      fun record => ?_
    · split at hrecord
      · rename_i stored hstored
        obtain rfl := Except.ok.inj hrecord
        exact ⟨h, KeyedTable.key_of_get? hstored⟩
      · cases hrecord
    · refine Spec.bind Returns.ofExcept fun payload => Spec.bind Returns.ofExcept fun bytes =>
        Spec.mapError (write_returns fun engine storage h hstorage => ?_)
      obtain ⟨_, _, hgroups, rfl⟩ := h
      rw [← Except.ok.inj hstorage]
      exact ⟨hgroups, { record with state := .processed, payload := bytes },
        KeyedTable.get?_upsert_self _ _, rfl⟩

theorem confirmGroupEvolution_returns :
    Returns (fun engine => engine.storage.groups = groups ∧
        OriginProcessed messageId engine.storage)
      (confirmGroupEvolution env messageId)
      (fun _ engine => engine.storage.groups = groups ∧
        OriginSettled env messageId engine.storage) := by
  unfold confirmGroupEvolution
  split
  · refine Spec.bind (R := fun evolutions engine => engine.storage.evolutions.rows = evolutions ∧
        engine.storage.groups = groups ∧ OriginProcessed messageId engine.storage)
      (Spec.mapError (query_returns fun engine evolutions h hrows => ?_))
      fun evolutions => ?_
    · exact ⟨Except.ok.inj hrows, h⟩
    · split
      · rename_i hnone
        refine Spec.pure _ fun engine h => ⟨h.2.1, h.2.2, fun _ evolution hevolution => ?_⟩
        rw [h.1, hnone] at hevolution
        cases hevolution
      · rename_i evolution hfound
        refine Spec.mapError (write_returns fun engine storage h hstorage => ?_)
        obtain ⟨rfl, hgroups, hrecord⟩ := h
        rw [← Except.ok.inj hstorage]
        refine ⟨hgroups, hrecord, fun _ evolution' hevolution' => ?_⟩
        have hput := KeyedTable.find?_upsert (b := { evolution with phase := .confirmed }) hfound
          rfl (by simpa using List.find?_some hfound)
        obtain rfl := Option.some.inj (hput.symm.trans hevolution')
        rfl
  · rename_i hmaintenance
    exact Spec.pure _ fun engine h => ⟨h.1, h.2, fun hm => absurd hm hmaintenance⟩

theorem settleOriginCommit_returns (originCommitId : Option String) (keepMembers : Bool) :
    Returns (fun engine => GroupSettled env keepMembers mlsGroup (engine.storage.groups groupId))
      (settleOriginCommit env originCommitId stamp)
      (fun _ engine => GroupSettled env keepMembers mlsGroup (engine.storage.groups groupId) ∧
        ∀ messageId, originCommitId = some messageId →
          OriginSettled env messageId engine.storage) := by
  cases originCommitId with
  | none => exact Spec.pure _ fun engine h => ⟨h, fun _ heq => by cases heq⟩
  | some messageId =>
    refine Spec.at fun engine h => ?_
    refine ((stampProcessedOwnCommitRecord_returns env messageId).bind
      fun _ => confirmGroupEvolution_returns env messageId).pre
        (fun engine' heq => by rw [heq]) |>.weaken ?_
    rintro _ engine' ⟨hgroups, horigin⟩
    refine ⟨hgroups ▸ h, fun messageId' heq => ?_⟩
    obtain rfl := Option.some.inj heq
    exact horigin

variable {c : Confirmation}

theorem settleConfirmation_returns [DecidableEq G] (hcommit : env.pendingCommit mlsGroup = none) :
    Returns (Stores c.groupId mlsGroup) (settleConfirmation env c mlsGroup stamp)
      (fun _ engine => ConfirmSettled env c mlsGroup engine.storage) := by
  refine (rewriteRecord_returns env c.groupId mlsGroup _).bind fun _ =>
    (cacheSelfCapabilities_returns env c.groupId mlsGroup _).bind fun _ =>
    (checkpointOwnCommit_returns env c.groupId mlsGroup _ _).bind fun _ =>
    (settleOriginCommit_returns env c.groupId mlsGroup _ _).bind fun _ =>
    Spec.bind (R := fun _ engine =>
      (GroupSettled env (c.kind = .disband) mlsGroup (engine.storage.groups c.groupId) ∧
        ∀ messageId, c.originCommitId = some messageId →
          OriginSettled env messageId engine.storage) ∧
      ∀ intent, c.queuedIntent = some intent →
        engine.storage.queuedOutbound.get? intent.2 = none) ?_ fun _ => ?_
  · unfold settleQueuedIntent
    cases hqueued : c.queuedIntent with
    | none => exact Spec.pure _ fun engine h => ⟨h, fun _ heq => by cases heq⟩
    | some intent =>
      refine Spec.mapError (write_returns fun engine storage h hstorage => ?_)
      split at hstorage
      · rw [← Except.ok.inj hstorage]
        refine ⟨⟨h.1, fun messageId heq => ⟨(h.2 _ heq).processed, (h.2 _ heq).confirmed⟩⟩, ?_⟩
        intro intent' heq
        obtain rfl := Option.some.inj heq
        simp [KeyedTable.get?_erase]
      · cases hstorage
  · unfold settleFanout
    cases hfanout : c.confirmedFanout with
    | none =>
      refine Spec.pure _ fun engine h => ⟨hcommit, h.1.1, h.1.2, h.2, fun fanout heq => ?_⟩
      rw [hfanout] at heq
      cases heq
    | some fanout =>
      refine Spec.mapError (write_returns fun engine storage h hstorage => ?_)
      have hput : storage = { engine.storage with
          fanouts := engine.storage.fanouts.upsert fanout } := by
        split at hstorage
        · exact (Except.ok.inj hstorage).symm
        · split at hstorage
          · exact (Except.ok.inj hstorage).symm
          · cases hstorage
      subst hput
      refine ⟨hcommit, h.1.1, fun messageId heq =>
        ⟨(h.1.2 _ heq).processed, (h.1.2 _ heq).confirmed⟩, h.2, fun fanout' heq => ?_⟩
      obtain rfl := Option.some.inj (hfanout.symm.trans heq)
      exact KeyedTable.get?_upsert_self _ _

/-- The merged group is the stored one, and has no staged commit. -/
abbrev Merged (c : Confirmation) (merged : G) (engine : Engine G) : Prop :=
  Stores c.groupId merged engine ∧ env.pendingCommit merged = none

theorem mergeStagedCommit_returns (staged : C) :
    Returns (fun _ => True) (mergeStagedCommit env c mlsGroup staged)
      (fun r => Merged env c r.1) := by
  have hmerge : ∀ stamp : OwnCommitConvergenceStamp, Returns (fun _ => True) (do
      let merged ← changeMlsGroup "merge_pending: " c.groupId (env.mergePendingCommit mlsGroup)
      ofExcept (env.validateCurrentProfileGroupInvariants merged)
      pure (merged, { stamp with
        resultingEpochAuthenticator := some (env.epochAuthenticator merged) }) :
          EngineProgram G PublishError (G × OwnCommitConvergenceStamp))
      (fun r => Merged env c r.1) := by
    intro stamp
    refine Spec.bind (R := Merged env c) ?_ fun merged =>
      Spec.bind Returns.ofExcept fun _ => Spec.pure _ fun _ h => h.2
    refine Spec.bind Returns.ofExcept fun merged => Spec.bind (R := fun _ => Merged env c merged)
      (Spec.mapError (write_returns fun engine storage hP hstorage => ?_))
      fun _ => Spec.pure _ fun _ h => h
    obtain ⟨hmerged, -⟩ := hP
    rw [← Except.ok.inj hstorage]
    refine ⟨by simp only [Stores, updateGroup_groups], ?_⟩
    cases hchanged : env.mergePendingCommit mlsGroup with
    | ok merged' =>
      rw [hchanged] at hmerged
      obtain rfl := Except.ok.inj hmerged
      exact env.merge_clears hchanged
    | error e =>
      rw [hchanged] at hmerged
      cases hmerged
  refine (Returns.any _).bind fun _ => (Returns.any _).bind fun stamp =>
    (Returns.any _).bind fun stamp => (Returns.any _).bind fun _ => ?_
  split
  · exact (Returns.any _).bind fun _ => hmerge stamp
  · exact hmerge stamp

theorem confirmWrites_returns [DecidableEq G] :
    Returns (Stores c.groupId mlsGroup) (confirmWrites env c mlsGroup)
      (fun _ engine => ∃ mlsGroup', ConfirmSettled env c mlsGroup' engine.storage) := by
  unfold confirmWrites
  cases hcommit : env.pendingCommit mlsGroup with
  | none =>
    exact (settleConfirmation_returns env mlsGroup hcommit).weaken
      fun _ _ h => ⟨mlsGroup, h⟩
  | some staged =>
    refine ((mergeStagedCommit_returns env mlsGroup staged).pre fun _ _ => trivial).bind fun r =>
      Spec.at fun engine h => ?_
    exact ((settleConfirmation_returns env r.1 h.2).from h.1).weaken
      fun _ _ h => ⟨r.1, h⟩

end Writes

/-! ### The transaction of a second call -/

section Again

variable {env : PublishEnv G C} {c : Confirmation} {mlsGroup : G} {engine : Engine G}

/-- A write that finds everything written. -/
theorem fromStorage_write_noop {f : EngineStorage G → Except StorageError (EngineStorage G)}
    (h : f engine.storage = .ok engine.storage) :
    fromStorage (write f) [] engine = ⟨.returned (), engine, []⟩ :=
  mapError_returned (write_returned h)

theorem fromStorage_query {α : Type} {f : EngineStorage G → Except StorageError α} {a : α}
    (h : f engine.storage = .ok a) :
    fromStorage (query f) [] engine = ⟨.returned a, engine, []⟩ :=
  mapError_returned (query_returned h)

theorem rewriteRecord_noop {keepMembers : Bool} {groupId : GroupId}
    (h : GroupSettled env keepMembers mlsGroup (engine.storage.groups groupId)) :
    rewriteRecord env keepMembers groupId mlsGroup [] engine = ⟨.returned (), engine, []⟩ := by
  obtain ⟨record, hrecord, hmirror⟩ := h.record
  refine (bind_returned (fromStorage_query (a := record) ?_)).trans (fromStorage_write_noop ?_)
  · rw [hrecord]
  · rw [hmirror, updateGroup_eq_self]
    rw [← hrecord]

theorem cacheSelfCapabilities_noop {keepMembers : Bool} {groupId : GroupId}
    (h : GroupSettled env keepMembers mlsGroup (engine.storage.groups groupId)) :
    cacheSelfCapabilities env groupId mlsGroup [] engine = ⟨.returned (), engine, []⟩ := by
  unfold cacheSelfCapabilities
  cases hleaf : env.ownLeaf mlsGroup with
  | none => rfl
  | some leaf =>
    obtain ⟨profile, hprofile, hgroup, hid, hcaps⟩ := h.ownLeaf leaf hleaf
    simp only [hprofile, hgroup, hid, ofExcept_ok_bind, ne_eq, not_true_eq_false, if_false]
    -- The capabilities that are cached again are the cached ones.
    have hinsert : (engine.storage.groups groupId).memberCaps.insert env.selfId leaf.capabilities =
        (engine.storage.groups groupId).memberCaps := by
      refine ExtTreeMap.ext_getElem? fun id => ?_
      rw [ExtTreeMap.getElem?_insert]
      split
      · rename_i heq
        rw [Std.compare_eq_iff_eq] at heq
        rw [← heq, hcaps]
      · rfl
    refine fromStorage_write_noop ?_
    rw [updateGroup_eq_self]
    rw [hinsert]

theorem settleOriginCommit_noop
    (h : ∀ messageId, c.originCommitId = some messageId →
      OriginSettled env messageId engine.storage) :
    settleOriginCommit env c.originCommitId none [] engine = ⟨.returned (), engine, []⟩ := by
  unfold settleOriginCommit
  cases horigin : c.originCommitId with
  | none => rfl
  | some messageId =>
    obtain ⟨⟨record, hrecord, hstate⟩, hconfirmed⟩ := h messageId horigin
    have hkey := KeyedTable.key_of_get? hrecord
    refine (bind_returned (fromStorage_write_noop ?_)).trans ?_
    · have hsame : { record with state := .processed } = record := by rw [← hstate]
      simp only [hrecord, hsame, KeyedTable.upsert_eq_self (hkey ▸ hrecord)]
    unfold confirmGroupEvolution
    split
    · rename_i hmaintenance
      have hlist : fromStorage listGroupEvolutions [] engine =
          ⟨.returned engine.storage.evolutions.rows, engine, []⟩ := fromStorage_query rfl
      rw [bind_returned hlist]
      cases hfound : engine.storage.evolutions.rows.find?
          (fun evolution => evolution.signedMessageId = some messageId) with
      | none => rfl
      | some evolution =>
        have hsame : { evolution with phase := .confirmed } = evolution := by
          rw [← hconfirmed hmaintenance evolution hfound]
        simp only [hsame]
        refine fromStorage_write_noop ?_
        rw [KeyedTable.upsert_eq_self]
        exact KeyedTable.mem_rows_iff.mp (List.mem_of_find?_eq_some hfound)
    · rfl

/-- Where everything is written, only the queued intent is left to look at. -/
theorem settleConfirmation_noop [DecidableEq G] (h : ConfirmSettled env c mlsGroup engine.storage) :
    settleConfirmation env c mlsGroup none [] engine =
      (settleQueuedIntent c.queuedIntent >>= fun _ => settleFanout c.confirmedFanout) [] engine :=
  (bind_returned (rewriteRecord_noop h.group)).trans <|
    (bind_returned (cacheSelfCapabilities_noop h.group)).trans <|
    (bind_returned (by rfl)).trans <| bind_returned (settleOriginCommit_noop h.origin)

theorem settleConfirmation_again [DecidableEq G] (h : ConfirmSettled env c mlsGroup engine.storage)
    (hqueued : c.queuedIntent = none) :
    settleConfirmation env c mlsGroup none [] engine = ⟨.returned (), engine, []⟩ := by
  rw [settleConfirmation_noop h, hqueued]
  have hnone : settleQueuedIntent none [] engine = ⟨.returned (), engine, []⟩ := rfl
  rw [bind_returned hnone]
  unfold settleFanout
  cases hfanout : c.confirmedFanout with
  | none => rfl
  | some fanout =>
    have hstored := h.fanout fanout hfanout
    refine fromStorage_write_noop ?_
    rw [hstored]
    simp only [OutboundFanout.validateSuccessorOf_self, KeyedTable.upsert_eq_self hstored]

/-- A queued intent that was deleted is not found again. -/
theorem settleConfirmation_stuck [DecidableEq G] (h : ConfirmSettled env c mlsGroup engine.storage)
    {intent : GroupId × String} (hqueued : c.queuedIntent = some intent) :
    settleConfirmation env c mlsGroup none [] engine =
      ⟨.failed (.storage .notFound), engine, []⟩ := by
  rw [settleConfirmation_noop h, hqueued]
  refine bind_failed ?_
  have hgone := h.queued intent hqueued
  simp only [settleQueuedIntent, fromStorage, EngineStorage.deleteQueuedOutboundIntent,
    EngineStorage.write, mapError, attempt, call, Bind.bind, hgone]
  rfl

end Again

/-! ### The parts of a call -/

/-- The confirmation as memory has it, and the OpenMLS group that is loaded for it. -/
structure LoadedConfirm (pending : PendingStateRef) (fanout : Option OutboundFanout)
    (engine : Engine G) (c : Confirmation) (mlsGroup : G) : Prop where
  read : readConfirmation pending fanout engine = .ok c
  values : (engine.storage.groups c.groupId).openmlsValues = some mlsGroup

/-- The anchor of the epoch that a staged commit ends. -/
def anchorStaged (env : PublishEnv G C) (c : Confirmation) (mlsGroup : G) :
    EngineProgram G PublishError Unit :=
  if (env.pendingCommit mlsGroup).isSome then retainCurrentEpochSnapshotForGroup env c.groupId
  else pure ()

/-- What follows the transaction, up to and with the transition. -/
def anchorAndMove (env : PublishEnv G C) (pending : PendingStateRef) (c : Confirmation) :
    EngineProgram G PublishError (Confirmation × GroupId × EpochId) := do
  retainCurrentEpochSnapshotForGroup env c.groupId
  let resolved ← moveEpochManager (·.confirmPublish pending)
  pure (c, resolved)

/-- What follows the loading of the group. -/
def confirmLoaded [DecidableEq G] (env : PublishEnv G C) (pending : PendingStateRef)
    (c : Confirmation) (mlsGroup : G) :
    EngineProgram G PublishError (Confirmation × GroupId × EpochId) := do
  anchorStaged env c mlsGroup
  transaction .storage (confirmWrites env c mlsGroup)
  anchorAndMove env pending c

theorem loadMlsGroup_spec (engine : Engine G) (groupId : GroupId) :
    Spec Reported (· = engine) (loadMlsGroup groupId)
      (fun mlsGroup engine' => engine' = engine ∧
        (engine.storage.groups groupId).openmlsValues = some mlsGroup)
      (fun _ engine' => engine' = engine) (fun _ => True) := by
  refine Spec.bind (R := fun values engine' => engine' = engine ∧
      (engine.storage.groups groupId).openmlsValues = values)
    (Spec.mapError (query_spec ?_ ?_ ?_ ?_)) fun values => ?_
  · rintro _ values rfl hvalues
    exact ⟨rfl, Except.ok.inj hvalues⟩
  · intro _ _ _ hvalues
    cases hvalues
  · exact fun _ _ heq _ => heq
  · exact fun _ _ _ => trivial
  · cases values with
    | some mlsGroup => exact Spec.pure _ fun _ h => h
    | none => exact Spec.raise _ fun _ h => h.1

/-- A transition that is refused leaves the engine alone. -/
theorem moveEpochManager_spec {α : Type} {allow : Fate StorageError → Prop}
    {f : EpochManager → EpochManager × Except EngineError α} {engine : Engine G}
    {K : Engine G → Prop} (hf : ∀ m e, (f m).2 = .error e → (f m).1 = m) :
    Spec allow (· = engine) (moveEpochManager f)
      (fun a engine' => engine' = { engine with epochManager := (f engine.epochManager).1 } ∧
        (f engine.epochManager).2 = .ok a)
      (fun _ engine' => engine' = engine) K := by
  refine Spec.bind (R := fun result engine' => result = (f engine.epochManager).2 ∧
      engine' = { engine with epochManager := (f engine.epochManager).1 })
    (Spec.internal fun _ heq => ?_) fun result => Spec.ofExcept ?_ ?_
  · subst heq
    exact ⟨rfl, rfl⟩
  · rintro a _ ha ⟨rfl, rfl⟩
    cases hresult : (f engine.epochManager).2 with
    | ok a' =>
      rw [hresult] at ha
      exact ⟨rfl, by rw [Except.ok.inj ha]⟩
    | error e =>
      rw [hresult] at ha
      cases ha
  · rintro e _ he ⟨rfl, rfl⟩
    cases hresult : (f engine.epochManager).2 with
    | ok a =>
      rw [hresult] at he
      cases he
    | error e' => rw [hf _ e' hresult]

section Parts

variable {env : PublishEnv G C} {pending : PendingStateRef} {fanout : Option OutboundFanout}
  {engine : Engine G} {c : Confirmation} {mlsGroup : G}

theorem loadMlsGroup_returned {groupId : GroupId}
    (h : (engine.storage.groups groupId).openmlsValues = some mlsGroup) :
    loadMlsGroup groupId [] engine = ⟨.returned mlsGroup, engine, []⟩ := by
  have hload : mapError (fun e => .backend ("load: " ++ e.debugText))
      (loadOpenmlsValues groupId) [] engine =
        (⟨.returned (some mlsGroup), engine, []⟩ :
          Outcome StorageError (Engine G) PublishError (Option G)) :=
    mapError_returned (query_returned (by rw [h]))
  exact bind_returned hload

variable [DecidableEq G]

theorem confirmTransition_eq (env : PublishEnv G C) :
    confirmTransition env pending fanout = (do
      let engine ← readEngine
      let c ← ofExcept (readConfirmation pending fanout engine)
      let mlsGroup ← loadMlsGroup c.groupId
      confirmLoaded env pending c mlsGroup) := by
  unfold confirmTransition
  congr 1
  funext engine
  congr 1
  funext c
  congr 1
  funext mlsGroup
  unfold confirmLoaded anchorStaged
  split <;> rfl

theorem confirmTransition_loaded (h : LoadedConfirm pending fanout engine c mlsGroup) :
    confirmTransition env pending fanout [] engine =
      confirmLoaded env pending c mlsGroup [] engine := by
  rw [confirmTransition_eq]
  have hread : readEngine [] engine =
      (⟨.returned engine, engine, []⟩ : Outcome StorageError (Engine G) PublishError (Engine G)) :=
    rfl
  rw [bind_returned hread, h.read, ofExcept_ok_bind, bind_returned (loadMlsGroup_returned h.values)]

/-- A call whose first anchor goes through. -/
theorem confirmLoaded_anchored {engine' : Engine G}
    (h : anchorStaged env c mlsGroup [] engine = ⟨.returned (), engine', []⟩) :
    confirmLoaded env pending c mlsGroup [] engine =
      (transaction .storage (confirmWrites env c mlsGroup) >>= fun _ =>
        anchorAndMove env pending c) [] engine' :=
  bind_returned h

end Parts

/-! ### Failed calls -/

/-- What failed calls can leave of the engine: nothing is done, the first anchor is partly
made, or the transaction is committed and the second anchor is partly made. -/
inductive Attempted [DecidableEq G] (env : PublishEnv G C) (pending : PendingStateRef)
    (fanout : Option OutboundFanout) (engine : Engine G) : Engine G → Prop
  | untouched : Attempted env pending fanout engine engine
  | anchoring {c : Confirmation} {mlsGroup : G} {engine' : Engine G}
      (hloaded : LoadedConfirm pending fanout engine c mlsGroup)
      (hcommit : (env.pendingCommit mlsGroup).isSome)
      (hpartly : PartlyRetained env c.groupId engine engine') :
      Attempted env pending fanout engine engine'
  | settled {c : Confirmation} {mlsGroup : G} {anchored written engine' : Engine G}
      (hloaded : LoadedConfirm pending fanout engine c mlsGroup)
      (hanchor : anchorStaged env c mlsGroup [] engine = ⟨.returned (), anchored, []⟩)
      (hwrites : confirmWrites env c mlsGroup [] anchored = ⟨.returned (), written, []⟩)
      (hnear : engine' = written ∨ PartlyRetained env c.groupId written engine') :
      Attempted env pending fanout engine engine'

/-- Two engines with the same memory read the same confirmation. -/
theorem readConfirmation_memory {pending : PendingStateRef} {fanout : Option OutboundFanout}
    {engine engine' : Engine G} (h : engine' = { engine with storage := engine'.storage }) :
    readConfirmation pending fanout engine' = readConfirmation pending fanout engine := by
  rw [h]
  rfl

theorem readConfirmation_queuedIntent {pending : PendingStateRef} {fanout : Option OutboundFanout}
    {engine : Engine G} {c : Confirmation} (h : readConfirmation pending fanout engine = .ok c) :
    c.queuedIntent = engine.queuedIntentByPending[pending]? := by
  unfold readConfirmation at h
  cases hconfirmed : confirmedFanout pending fanout with
  | error e =>
    rw [hconfirmed] at h
    cases h
  | ok confirmed =>
    cases hentry : engine.epochManager.pending[pending]? with
    | none =>
      rw [hconfirmed, hentry] at h
      cases h
    | some entry =>
      rw [hconfirmed, hentry] at h
      cases h
      rfl

theorem PartlyRetained.memory {env : PublishEnv G C} {groupId : GroupId}
    {engine engine' : Engine G} (h : PartlyRetained env groupId engine engine') :
    engine' = { engine with storage := engine'.storage } := by
  obtain ⟨_, _, _, _, _, rfl, _⟩ := h
  rfl

/-- The anchors are the only thing that differs. -/
theorem PartlyRetained.values {env : PublishEnv G C} {groupId : GroupId}
    {engine engine' : Engine G} (h : PartlyRetained env groupId engine engine') :
    (engine'.storage.groups groupId).openmlsValues =
      (engine.storage.groups groupId).openmlsValues := by
  obtain ⟨_, _, _, _, _, rfl, _⟩ := h
  rw [Engine.setAnchors_rows]

theorem PartlyRetained.settled {env : PublishEnv G C} {c : Confirmation} {mlsGroup : G}
    {engine engine' : Engine G} (h : PartlyRetained env c.groupId engine engine')
    (hsettled : ConfirmSettled env c mlsGroup engine.storage) :
    ConfirmSettled env c mlsGroup engine'.storage := by
  obtain ⟨_, _, _, _, _, rfl, _⟩ := h
  refine ⟨hsettled.noCommit, ?_, fun id hid => ?_, hsettled.queued, hsettled.fanout⟩
  · rw [Engine.setAnchors_rows]
    exact ⟨hsettled.group.values, hsettled.group.record, hsettled.group.ownLeaf⟩
  · exact ⟨(hsettled.origin id hid).processed, (hsettled.origin id hid).confirmed⟩

/-- The engine itself, or the same with an anchor partly made. -/
abbrev Near (env : PublishEnv G C) (c : Confirmation) (written engine : Engine G) : Prop :=
  engine = written ∨ PartlyRetained env c.groupId written engine

/-- The first anchor is made for a staged commit only. -/
abbrev NearStaged (env : PublishEnv G C) (c : Confirmation) (mlsGroup : G)
    (start engine : Engine G) : Prop :=
  engine = start ∨ (env.pendingCommit mlsGroup).isSome ∧ PartlyRetained env c.groupId start engine

section Steps

variable {env : PublishEnv G C} {pending : PendingStateRef}
  {fanout : Option OutboundFanout} {engine engine' anchored written : Engine G}
  {c : Confirmation} {mlsGroup : G}

/-- The first anchor of a call, where an earlier one may have failed in it. -/
theorem anchorStaged_spec {K : Engine G → Prop} (h : NearStaged env c mlsGroup engine engine') :
    Spec Reported (· = engine') (anchorStaged env c mlsGroup)
      (fun _ anchored => anchorStaged env c mlsGroup [] engine = ⟨.returned (), anchored, []⟩ ∧
        NearStaged env c mlsGroup engine anchored)
      (fun _ => NearStaged env c mlsGroup engine) K := by
  unfold anchorStaged NearStaged
  rw [NearStaged] at h
  cases hcommit : (env.pendingCommit mlsGroup).isSome with
  | false =>
    rw [hcommit] at h
    obtain rfl | ⟨hcommit, _⟩ := h
    · exact Spec.pure _ fun _ heq => heq ▸ ⟨rfl, .inl rfl⟩
    · cases hcommit
  | true =>
    simp only [if_true, true_and]
    simp only [hcommit, true_and] at h
    refine (retain_spec (fun _ h => h) env).post ?_ ?_ fun _ h => h
    · rintro _ _ ⟨max, group, hanchor, rfl⟩
      obtain rfl | hpartly := h
      · exact ⟨retain_returned hanchor, .inr hanchor.partlyRetained⟩
      · obtain ⟨hanchor', heq⟩ := hpartly.retained hanchor
        rw [heq]
        exact ⟨retain_returned hanchor', .inr hanchor'.partlyRetained⟩
    · rintro _ _ ⟨_, rfl | hpartly'⟩
      · exact h
      · obtain rfl | hpartly := h
        · exact .inr hpartly'
        · exact .inr (hpartly.trans hpartly')

/-- A failure after the transaction. -/
theorem anchorAndMove_spec (hnear : Near env c written engine') :
    Spec Reported (· = engine') (anchorAndMove env pending c) (fun _ _ => True)
      (fun _ => Near env c written) (fun _ => True) := by
  have hstep : ∀ {engine''}, PartlyRetained env c.groupId engine' engine'' →
      PartlyRetained env c.groupId written engine'' := by
    intro engine'' hpartly
    obtain rfl | hnear := hnear
    · exact hpartly
    · exact hnear.trans hpartly
  refine Spec.bind (R := fun _ => PartlyRetained env c.groupId written)
    ((retain_spec (fun _ h => h) env).post ?_ ?_ fun _ h => h) fun _ => ?_
  · rintro _ _ ⟨_, _, hanchor, rfl⟩
    exact hstep hanchor.partlyRetained
  · rintro _ _ ⟨_, rfl | hpartly⟩
    · exact hnear
    · exact .inr (hstep hpartly)
  · refine Spec.bind (R := fun _ _ => True) ?_ fun _ => Spec.pure _ fun _ _ => trivial
    refine Spec.at fun engine'' h => (moveEpochManager_spec ?_).post (fun _ _ _ => trivial)
      (fun _ _ heq => .inr (heq ▸ h)) fun _ h => h
    intro m e he
    obtain ⟨_, _, _, heq⟩ | ⟨_, heq⟩ := m.confirmPublish_cases pending
    · rw [heq] at he
      cases he
    · rw [heq]

theorem ConfirmSettled.anchorStaged_eq (h : ConfirmSettled env c mlsGroup engine.storage) :
    anchorStaged env c mlsGroup = pure () := by
  simp [anchorStaged, h.noCommit]

theorem ConfirmSettled.anchorStaged (h : ConfirmSettled env c mlsGroup engine.storage)
    (plan : List (Fate StorageError)) :
    anchorStaged env c mlsGroup plan engine = ⟨.returned (), engine, plan⟩ := by
  rw [h.anchorStaged_eq]
  rfl

variable [DecidableEq G]

/-- What a committed transaction leaves, with the second anchor partly made. -/
theorem settled_of_writes (hloaded : LoadedConfirm pending fanout engine c mlsGroup)
    (hanchor : anchorStaged env c mlsGroup [] engine = ⟨.returned (), anchored, []⟩)
    (hwrites : confirmWrites env c mlsGroup [] anchored = ⟨.returned (), written, []⟩)
    (hnear : Near env c written engine') :
    readConfirmation pending fanout engine' = .ok c ∧
      ∃ mlsGroup', ConfirmSettled env c mlsGroup' engine'.storage := by
  obtain ⟨_, hanchored⟩ :=
    (anchorStaged_spec (K := fun _ => True) (.inl rfl)).returned rfl hanchor
  have hmemory := ((confirmWrites_calls env mlsGroup c).moves [] anchored).memory
  rw [hwrites] at hmemory
  have hread : readConfirmation pending fanout written = .ok c := by
    rw [readConfirmation_memory hmemory, ← hloaded.read]
    obtain rfl | ⟨_, hpartly⟩ := hanchored
    · rfl
    · exact readConfirmation_memory hpartly.memory
  have hvalues : (anchored.storage.groups c.groupId).openmlsValues = some mlsGroup := by
    obtain rfl | ⟨_, hpartly⟩ := hanchored
    · exact hloaded.values
    · exact hpartly.values.trans hloaded.values
  obtain ⟨mlsGroup', hsettled⟩ :=
    (confirmWrites_returns env mlsGroup).returned hvalues hwrites
  obtain rfl | hpartly := hnear
  · exact ⟨hread, mlsGroup', hsettled⟩
  · exact ⟨(readConfirmation_memory hpartly.memory).trans hread, mlsGroup',
      hpartly.settled hsettled⟩

/-- A failed call that had not committed a transaction before. -/
theorem confirmLoaded_spec (hloaded : LoadedConfirm pending fanout engine c mlsGroup)
    (h : NearStaged env c mlsGroup engine engine') :
    Spec Reported (· = engine') (confirmLoaded env pending c mlsGroup) (fun _ _ => True)
      (fun _ => Attempted env pending fanout engine) (fun _ => True) := by
  have hattempted : ∀ {engine'}, NearStaged env c mlsGroup engine engine' →
      Attempted env pending fanout engine engine' := by
    rintro engine' (rfl | ⟨hcommit, hpartly⟩)
    · exact .untouched
    · exact .anchoring hloaded hcommit hpartly
  refine Spec.bind ((anchorStaged_spec h).failing fun _ _ h => hattempted h) fun _ => ?_
  refine Spec.bind (R := fun _ written => ∃ anchored,
      anchorStaged env c mlsGroup [] engine = ⟨.returned (), anchored, []⟩ ∧
      confirmWrites env c mlsGroup [] anchored = ⟨.returned (), written, []⟩)
    (Spec.transaction (fun anchored hP => ?_) (fun anchored e hP _ => hattempted hP.2)
      fun _ _ _ => trivial) fun _ => Spec.at fun written hP => ?_
  · refine ((confirmWrites_calls env mlsGroup c).faithful.spec Reported anchored).post ?_
      (fun _ _ _ => hattempted hP.2) fun _ h => h
    exact fun _ written hwrites => ⟨anchored, hP.1, hwrites⟩
  · obtain ⟨anchored, hanchor, hwrites⟩ := hP
    exact (anchorAndMove_spec (.inl rfl)).failing
      fun _ _ h => .settled hloaded hanchor hwrites h

theorem ConfirmSettled.confirmWrites_eq (h : ConfirmSettled env c mlsGroup engine.storage) :
    confirmWrites env c mlsGroup = settleConfirmation env c mlsGroup none := by
  simp [confirmWrites, h.noCommit]

/-- A failed call after one that had committed its transaction: where everything is
written, a transaction that commits changes nothing. -/
theorem confirmSettled_spec (hsettled : ConfirmSettled env c mlsGroup engine'.storage)
    (hnear : Near env c written engine') :
    Spec Reported (· = engine') (confirmLoaded env pending c mlsGroup) (fun _ _ => True)
      (fun _ => Near env c written) (fun _ => True) := by
  rw [confirmLoaded, hsettled.anchorStaged_eq, hsettled.confirmWrites_eq]
  refine Spec.bind (R := fun _ => (· = engine')) (Spec.pure _ fun _ heq => heq) fun _ => ?_
  refine Spec.bind (R := fun _ => (· = engine')) (Spec.transaction (fun start heq => ?_)
    (fun start e heq _ => heq ▸ hnear) fun _ _ _ => trivial) fun _ => anchorAndMove_spec hnear
  subst heq
  refine ((settleConfirmation_calls env mlsGroup c).faithful.spec Reported start).post ?_
    (fun _ _ _ => hnear) fun _ h => h
  intro _ engine'' hagain
  cases hqueued : c.queuedIntent with
  | none =>
    rw [settleConfirmation_again hsettled hqueued] at hagain
    cases hagain
    rfl
  | some intent =>
    rw [settleConfirmation_stuck hsettled hqueued] at hagain
    cases hagain

/-- One more failed call. -/
theorem attempted_step (h : Attempted env pending fanout engine engine') :
    Spec Reported (· = engine') (confirmTransition env pending fanout) (fun _ _ => True)
      (fun _ => Attempted env pending fanout engine) (fun _ => True) := by
  rw [confirmTransition_eq]
  refine Spec.bind (R := fun read start => read = engine' ∧ start = engine')
    (Spec.internal fun _ heq => ⟨heq, heq⟩) fun read => ?_
  refine Spec.bind (R := fun c start => readConfirmation pending fanout engine' = .ok c ∧
      start = engine') (Spec.ofExcept ?_ ?_) fun c => ?_
  · rintro c _ hread ⟨rfl, rfl⟩
    exact ⟨hread, rfl⟩
  · rintro _ _ _ ⟨_, rfl⟩
    exact h
  refine Spec.at fun _ hP => ?_
  obtain ⟨hread, rfl⟩ := hP
  rename_i start
  refine Spec.bind ((loadMlsGroup_spec start c.groupId).failing fun _ _ heq => heq ▸ h)
    fun mlsGroup => Spec.at fun _ hP => ?_
  obtain ⟨rfl, hvalues⟩ := hP
  rename_i start
  cases h with
  | untouched => exact confirmLoaded_spec ⟨hread, hvalues⟩ (.inl rfl)
  | anchoring hloaded hcommit hpartly =>
    rw [readConfirmation_memory hpartly.memory] at hread
    obtain rfl := Except.ok.inj (hloaded.read.symm.trans hread)
    obtain rfl := Option.some.inj (hloaded.values.symm.trans (hpartly.values.symm.trans hvalues))
    exact confirmLoaded_spec hloaded (.inr ⟨hcommit, hpartly⟩)
  | settled hloaded hanchor hwrites hnear =>
    obtain ⟨hread', mlsGroup', hsettled⟩ := settled_of_writes hloaded hanchor hwrites hnear
    obtain rfl := Except.ok.inj (hread'.symm.trans hread)
    obtain rfl := Option.some.inj (hsettled.group.values.symm.trans hvalues)
    exact (confirmSettled_spec hsettled hnear).failing
      fun _ _ h => .settled hloaded hanchor hwrites h

/-- After failed calls, the next call ends like the first would have without failures. -/
theorem confirmTransition_attempted (h : Attempted env pending fanout engine engine')
    (hqueued : ∀ intent, engine.queuedIntentByPending[pending]? = some intent →
      engine'.storage.queuedOutbound.get? intent.2 ≠ none) :
    confirmTransition env pending fanout [] engine' =
      confirmTransition env pending fanout [] engine := by
  cases h with
  | untouched => rfl
  | anchoring hloaded hcommit hpartly =>
    have hloaded' := LoadedConfirm.mk (G := G)
      ((readConfirmation_memory hpartly.memory).trans hloaded.read)
      (hpartly.values.trans hloaded.values)
    rw [confirmTransition_loaded hloaded, confirmTransition_loaded hloaded']
    simp only [confirmLoaded, anchorStaged, if_pos hcommit]
    simp only [Bind.bind, retain_eq_of_partly hpartly]
  | settled hloaded hanchor hwrites hnear =>
    rename_i c mlsGroup anchored written
    obtain ⟨hread, mlsGroup', hsettled⟩ := settled_of_writes hloaded hanchor hwrites hnear
    -- The row of the queued intent is gone, so there is no queued intent.
    have hnone : c.queuedIntent = none := by
      cases hintent : c.queuedIntent with
      | none => rfl
      | some intent =>
        rw [readConfirmation_queuedIntent hloaded.read] at hintent
        exact absurd (hsettled.queued intent ((readConfirmation_queuedIntent hloaded.read).trans
          hintent)) (hqueued intent hintent)
    have hwrites' : confirmWrites env c mlsGroup' [] engine' = ⟨.returned (), engine', []⟩ := by
      rw [hsettled.confirmWrites_eq]
      exact settleConfirmation_again hsettled hnone
    rw [confirmTransition_loaded hloaded, confirmTransition_loaded ⟨hread, hsettled.group.values⟩,
      confirmLoaded_anchored hanchor, confirmLoaded_anchored (hsettled.anchorStaged []),
      bind_returned (transaction_returned hwrites), bind_returned (transaction_returned hwrites')]
    obtain rfl | hpartly := hnear
    · rfl
    · simp only [anchorAndMove, Bind.bind, retain_eq_of_partly hpartly]

/-- If one of the failed calls has deleted the queued intent, the next call does not find it. -/
theorem confirmTransition_stuck (h : Attempted env pending fanout engine engine')
    {intent : GroupId × String} (hintent : engine.queuedIntentByPending[pending]? = some intent)
    (hstored : engine.storage.queuedOutbound.get? intent.2 ≠ none)
    (hgone : engine'.storage.queuedOutbound.get? intent.2 = none) :
    confirmTransition env pending fanout [] engine' =
      ⟨.failed (.storage .notFound), engine', []⟩ := by
  cases h with
  | untouched => exact absurd hgone hstored
  | anchoring hloaded hcommit hpartly =>
    obtain ⟨_, _, _, _, _, rfl, _⟩ := hpartly
    exact absurd hgone hstored
  | settled hloaded hanchor hwrites hnear =>
    obtain ⟨hread, mlsGroup', hsettled⟩ := settled_of_writes hloaded hanchor hwrites hnear
    have hstuck := settleConfirmation_stuck hsettled
      ((readConfirmation_queuedIntent hloaded.read).trans hintent)
    rw [confirmTransition_loaded ⟨hread, hsettled.group.values⟩,
      confirmLoaded_anchored (hsettled.anchorStaged []), hsettled.confirmWrites_eq]
    exact bind_failed (transaction_failed hstuck)

end Steps

/-! ### Any number of failed calls -/

/-- The engine after some calls that failed before the transition, each under some
storage failures. -/
inductive FailedConfirms [DecidableEq G] (env : PublishEnv G C) (pending : PendingStateRef)
    (fanout : Option OutboundFanout) (engine : Engine G) : Engine G → Prop
  | none : FailedConfirms env pending fanout engine engine
  | more {engine' : Engine G} {plan : List (Fate StorageError)} {e : PublishError}
      (h : FailedConfirms env pending fanout engine engine') (hplan : ∀ f ∈ plan, Reported f)
      (hfailed : (confirmTransition env pending fanout plan engine').ending = .failed e) :
      FailedConfirms env pending fanout engine
        (doConfirmPublishedWithFanout env pending fanout plan engine').store

section Retry

variable [DecidableEq G] {env : PublishEnv G C} {pending : PendingStateRef}
  {fanout : Option OutboundFanout} {engine engine' : Engine G}

theorem attempted_of_failedConfirms (h : FailedConfirms env pending fanout engine engine') :
    Attempted env pending fanout engine engine' := by
  induction h with
  | none => exact .untouched
  | more _ hplan hfailed ih =>
    rename_i start plan e _
    have hmeets := (attempted_step ih plan start hplan rfl).2
    rcases ho : confirmTransition env pending fanout plan start with ⟨ending, store, rest⟩
    rw [ho] at hmeets hfailed
    cases hfailed
    rw [doConfirmPublishedWithFanout, bind_failed ho]
    exact hmeets

/-- After any number of failed calls, as long as the queued intent of the publication is
still stored, the next call has the outcome of a single call without failures: the same
result, the same storage and the same memory.  If they have deleted the queued intent, the
next call fails and changes nothing, and so does every call after it. -/
theorem confirm_after_failures (h : FailedConfirms env pending fanout engine engine') :
    ((∀ intent, engine.queuedIntentByPending[pending]? = some intent →
        engine'.storage.queuedOutbound.get? intent.2 ≠ none) →
      doConfirmPublishedWithFanout env pending fanout [] engine' =
        doConfirmPublishedWithFanout env pending fanout [] engine) ∧
    ∀ intent, engine.queuedIntentByPending[pending]? = some intent →
      engine.storage.queuedOutbound.get? intent.2 ≠ none →
      engine'.storage.queuedOutbound.get? intent.2 = none →
      doConfirmPublishedWithFanout env pending fanout [] engine' =
        ⟨.failed (.storage .notFound), engine', []⟩ := by
  have hattempted := attempted_of_failedConfirms h
  refine ⟨fun hqueued => ?_, fun intent hintent hstored hgone => ?_⟩
  · simp only [doConfirmPublishedWithFanout, Bind.bind,
      confirmTransition_attempted hattempted hqueued]
  · rw [doConfirmPublishedWithFanout]
    exact bind_failed (confirmTransition_stuck hattempted hintent hstored hgone)

end Retry

namespace QueuedInvite

/-- The OpenMLS group is a flag: whether the commit that starts epoch 4 is still staged. -/
def env : PublishEnv Bool Unit where
  selfId := [7]
  maintenance := false
  epoch staged := if staged then 3 else 4
  epochAuthenticator _ := "authenticator"
  pendingCommit staged := if staged then some () else none
  mergePendingCommit _ := .ok false
  clearPendingCommit _ := .ok false
  clearPendingProposals group := .ok group
  members _ := []
  ownLeaf _ := none
  protocolProfile _ := .ok .current
  requiredExtensionTypes _ := ∅
  requiredProposalTypes _ := ∅
  requiredAppComponents _ := none
  groupProfile _ := .ok none
  validateCurrentProfileGroupInvariants _ := .ok ()
  publicProposalRef _ _ := none
  addProposals _ := []
  commitOrderingPriority _ := .ordinary
  proposalRefs _ := .ok []
  selfRemoveOnly _ := false
  codec := ⟨fun _ => .error "unknown payload", fun _ => Vector.replicate 32 0,
    fun _ => .error (.decode "unknown message")⟩
  encode _ := .error "unknown payload"
  hexDigest _ := ""
  maxRewindCommits _ := .ok 5
  replayBufferedMessages _ := pure ()
  restoreSelfRemoveAutoCommitSchedules _ _ := pure ()
  merge_clears := by
    intro group merged h
    cases h
    rfl

/-- The commit was staged for a queued intent, and is published. -/
def engine : Engine Bool where
  storage :=
    { groups := fun _ =>
        { record := some ⟨"", "", 3, [], {}, .current⟩, openmlsValues := some true }
      messages := .empty
      evolutions := .empty
      queuedOutbound := KeyedTable.empty.upsert ⟨"invite", [1]⟩
      ownCommitIntents := []
      fanouts := .empty }
  epochManager :=
    { states := ExtTreeMap.empty.insert [1] (.pendingPublish ⟨4, [], 9⟩)
      pendingCounter := 9
      pending := ExtTreeMap.empty.insert 9 ⟨[1], 3, .groupEvolution⟩ }
  pendingOriginCommits := ∅
  queuedIntentByPending := ExtTreeMap.empty.insert 9 ([1], "invite")
  quarantinedGroups := []
  unhydratedGroups := []
  pendingConvergenceGroups := []

/-- A busy store, after some calls that go through. -/
def busyAfter (calls : Nat) : List (Fate StorageError) :=
  List.replicate calls .done ++ [.fails (.other "busy")]

theorem busyAfter_reported (calls : Nat) : ∀ f ∈ busyAfter calls, Reported f := by
  intro f hf
  rw [busyAfter, List.mem_append, List.mem_replicate, List.mem_singleton] at hf
  obtain ⟨_, rfl⟩ | rfl := hf <;> exact ⟨by simp, by simp⟩

/-- A call that fails where the transaction commits can be made again. -/
theorem confirm_after_busy_commit :
    (confirmTransition env 9 none (busyAfter 11) engine).ending =
        .failed (.storage (.other "busy")) ∧
      doConfirmPublishedWithFanout env 9 none []
          (doConfirmPublishedWithFanout env 9 none (busyAfter 11) engine).store =
        doConfirmPublishedWithFanout env 9 none [] engine := by
  have hfailed : (confirmTransition env 9 none (busyAfter 11) engine).ending =
      .failed (.storage (.other "busy")) := by decide
  refine ⟨hfailed, (confirm_after_failures
    (.more .none (busyAfter_reported 11) hfailed)).1 fun intent hintent => ?_⟩
  obtain rfl : ([1], "invite") = intent := Option.some.inj hintent
  decide

/-- A call that fails after the transaction, in the anchor of the new epoch, can not: the
queued intent is deleted, and the next call fails because it is. -/
theorem confirm_after_busy_anchor :
    FailedConfirms env 9 none engine
        (doConfirmPublishedWithFanout env 9 none (busyAfter 12) engine).store ∧
      (doConfirmPublishedWithFanout env 9 none [] engine).ending =
        .returned (.epochChanged [1] 3 4, none) ∧
      (doConfirmPublishedWithFanout env 9 none []
          (doConfirmPublishedWithFanout env 9 none (busyAfter 12) engine).store).ending =
        .failed (.storage .notFound) := by
  have hfailed : (confirmTransition env 9 none (busyAfter 12) engine).ending =
      .failed (.loadConvergencePolicy (.storage (StorageError.other "busy").debugText)) := by decide
  exact ⟨.more .none (busyAfter_reported 12) hfailed, by decide, by decide⟩

end QueuedInvite

end Mdk
