/-
Runs of the fanout driver.

A run stages publications, resumes stored fanouts and acknowledges published application
messages, at any times and with any answers of the adapter.  Any storage call may fail,
and the process may die before any of them; restarts and the other parts of the engine
come in between.

* `rollback_only_unexposed` — when the MLS half is confirmed and when rolled back: an
  attempt that is cut off leaves only its mark, and the next answer may overrule it;
* `retired_when_done` — what is left undone when a row is deleted: a confirmed row that
  is resumed before its deletion is taken for a failed one.
-/
import Mdk.FanoutSteps

namespace Mdk

open StoreProgram StoreProgram.Program
open Std (ExtTreeMap)

variable {G C : Type}

/-- One step of an account.  A message that is published is new, and an application
message resolves no pending state. -/
inductive FanoutStep [DecidableEq G] (env : FanoutEnv G C) (account : AccountDeviceRuntime G) :
    AccountDeviceRuntime G → Prop
  | elsewhere (engine : Engine G) (output : AccountDeviceEffects)
      (h : FanoutFrame none account.engine engine) :
      FanoutStep env account { account with engine, output }
  | publish (nowMs : UInt64) (answers : ℕ → AdapterResult) (message : TransportMessage)
      (continuation : Option PendingFanoutContinuation)
      (applicationMessage : Option OutboundApplicationMessage) (plan : List (Fate StorageError))
      (hnew : account.history message.id = [])
      (happ : continuation = none ∨ applicationMessage = none) :
      FanoutStep env account (publishOneWithPostConfirmationWelcomes env nowMs answers message
        continuation applicationMessage plan account).store
  | resume (nowMs : UInt64) (answers : String → ℕ → AdapterResult) (groupId : Option GroupId)
      (plan : List (Fate StorageError)) :
      FanoutStep env account
        (resumeOutboundFanoutsForGroup env nowMs answers groupId plan account).store
  | acknowledge (publishedMessages : List PublishedApplicationMessage)
      (plan : List (Fate StorageError)) :
      FanoutStep env account
        (acknowledgePublishedAppMessages publishedMessages plan account).store

/-- An account that started without fanouts. -/
inductive FanoutRun [DecidableEq G] (env : FanoutEnv G C) : AccountDeviceRuntime G → Prop
  | start (account : AccountDeviceRuntime G) (hrows : ∀ id, account.stored id = none)
      (hhistory : ∀ id, account.history id = []) : FanoutRun env account
  | step {account account' : AccountDeviceRuntime G} (h : FanoutRun env account)
      (hstep : FanoutStep env account account') : FanoutRun env account'

/-- However a program stops, the account is safe. -/
theorem Safe.of_keeps {α : Type} {P : AccountDeviceRuntime G → Prop} {p : AccountProgram G α}
    {account : AccountDeviceRuntime G} (h : Keeps P p fun _ => Safe) (hP : P account)
    (plan : List (Fate StorageError)) : Safe (p plan account).store := by
  have hmeets := (h plan account (fun _ _ => trivial) hP).2
  generalize p plan account = o at hmeets ⊢
  obtain ⟨ending, store, rest⟩ := o
  cases ending <;> exact hmeets

section Runs

variable [DecidableEq G] {env : FanoutEnv G C} {account account' : AccountDeviceRuntime G}

theorem Safe.step (h : Safe account) (hstep : FanoutStep env account account') : Safe account' := by
  cases hstep with
  | elsewhere engine output hframe => exact h.of_none ⟨rfl, hframe⟩
  | publish nowMs answers message continuation applicationMessage plan hnew happ =>
    exact Safe.of_keeps (publishOne_keeps env nowMs answers message happ) ⟨h, hnew⟩ plan
  | resume nowMs answers groupId plan =>
    exact Safe.of_keeps (resumeOutboundFanoutsForGroup_keeps env nowMs answers groupId) h plan
  | acknowledge publishedMessages plan =>
    exact Safe.of_keeps (acknowledgePublishedAppMessages_keeps publishedMessages) h plan

theorem safe_of_run (h : FanoutRun env account) : Safe account := by
  induction h with
  | start account hrows hhistory =>
    refine ⟨fun id => ?_, fun id row hrow => ?_⟩
    · rw [hhistory]
      exact sound_nil
    · cases (hrows id).symm.trans hrow
  | step _ hstep ih => exact ih.step hstep

/-- The MLS half is confirmed only where an endpoint accepted, and never both confirmed
and rolled back.  It is rolled back only where no stored answer may have exposed the message
and the last attempt at every target was answered, so that one that was cut off has been made
again; and where nothing at all may have been exposed, provided that no exposing attempt was cut
off or had its answer dropped. -/
theorem rollback_only_unexposed (h : FanoutRun env account) (id : String) :
    (NoLostExposure (account.history id) → RollbackCalled (account.history id) →
        ∀ event ∈ account.history id, event.exposes = false) ∧
      (RollbackCalled (account.history id) → ¬StoredExposure (account.history id) ∧
        ∀ i, ¬LastAttemptLost (account.history id) i) ∧
      (ConfirmCalled (account.history id) → AcceptedAnswer (account.history id)) ∧
      ¬(ConfirmCalled (account.history id) ∧ RollbackCalled (account.history id)) :=
  have hsound := (safe_of_run h).sound id
  ⟨fun hlost hcalled => exposes_eq_false (hsound.unexposed hcalled) hlost,
    fun hcalled => ⟨hsound.unexposed hcalled, hsound.answered hcalled⟩,
    hsound.confirmed, hsound.exclusive⟩

/-- A row that is deleted has no outstanding target and no pending MLS half.  Unless it
had accepted targets when it was deleted on resumption, its Welcomes were handed over,
and a failure is reported only where no target accepted, or too few of them did. -/
theorem retired_when_done (h : FanoutRun env account) {id : String} {row : OutboundFanout}
    {site : RetireSite} {failureReported : Bool} {newer older : List FanoutEvent}
    (hretired : account.history id = newer ++ .retired row site failureReported :: older) :
    (∀ target ∈ row.targets, target.status = .accepted ∨ target.status = .failed) ∧
      row.mlsState.isPending = false ∧
      (¬(site = .resume ∧ 0 < row.acceptedTargets) →
        (row.mlsState = .confirmed →
          ∀ welcome ∈ row.postConfirmationWelcomes, WelcomeHanded older welcome) ∧
        (¬(0 < row.acceptedTargets ∧ row.acceptedTargets < row.request.requiredAcks) →
          failureReported = true → row.acceptedTargets = 0)) := by
  have hretiredSound := ((safe_of_run h).sound id).retired
  rw [hretired] at hretiredSound
  have hok := hretiredSound.retiredOk
  exact ⟨hok.complete, hok.resolved, fun hnot =>
    ⟨fun hmls => hok.welcomes hmls hnot, fun hacks hreported => hok.failure hreported hnot hacks⟩⟩

end Runs

/-! ### A commit and a creation on one relay -/

namespace OneRelay

/-- Every stored payload is the wire message of the commit. -/
def env : FanoutEnv Bool Unit where
  publish := { QueuedInvite.env with
    codec := { QueuedInvite.env.codec with
      decode := fun _ => .ok (.openMlsWire ⟨"commit", [], "relay", .groupMessage [9]⟩) } }
  publishTarget message := match message.envelope with
    | .groupMessage transportGroupId => .ok (.group [1] transportGroupId ["relay"])
    | .welcome recipient => .ok (.inbox recipient ["relay"])
  requiredAcks _ := 1
  isTransient _ := false
  publishWelcomeFanout _ _ := pure ()
  publishLegacyOne _ := pure {}
  replay_fanouts _ := Moves.pure _
  restore_fanouts _ _ := Moves.pure _
  welcome_fanouts _ _ := Moves.pure _
  legacy_fanouts _ := Moves.pure _

/-- A group with a staged commit, of one kind. -/
def account (kind : PendingKind) : AccountDeviceRuntime Bool where
  engine := { QueuedInvite.engine with
    storage := { QueuedInvite.engine.storage with
      messages := KeyedTable.empty.upsert ⟨"commit", [1], 3, .sent, []⟩ }
    epochManager := { QueuedInvite.engine.epochManager with
      pending := ExtTreeMap.empty.insert 9 ⟨[1], 3, kind⟩ }
    pendingOriginCommits :=
      if kind = .createGroup then ∅ else ExtTreeMap.empty.insert 9 "commit"
    queuedIntentByPending := ∅ }
  output := {}
  history _ := []

theorem account_start (kind : PendingKind) : FanoutRun env (account kind) :=
  .start _ (fun _ => rfl) fun _ => rfl

variable (messageId : String)

/-- What the relay answers to an attempt. -/
def accepts (_ : ℕ) : AdapterResult := .ok ⟨messageId, ["relay"], [], 1⟩

def refuses (_ : ℕ) : AdapterResult :=
  .ok ⟨messageId, [], [⟨"relay", "offline", .notExposed⟩], 1⟩

/-! #### The commit -/

def commit : TransportMessage := ⟨"commit", [], "relay", .groupMessage [9]⟩

/-- The commit is sent once, and the relay is offline. -/
def commitRefused : AccountDeviceRuntime Bool :=
  (publishOneWithPostConfirmationWelcomes env 1000 (refuses "commit") commit
    (some ⟨9, .groupEvolution, []⟩) none [] (account .groupEvolution)).store

theorem commitRefused_run : FanoutRun env commitRefused := by
  unfold commitRefused
  exact (account_start .groupEvolution).step (.publish _ _ _ _ _ _ rfl (.inr rfl))

def refusal : TransportEndpointFailure := ⟨"relay", "offline", .notExposed⟩

def refusedRow : OutboundFanout where
  request := ⟨[7], commit, .group [1] [9] ["relay"], 1⟩
  groupId := some [1]
  applicationMessage := none
  pendingOriginMessageId := some "commit"
  pendingKind := some .groupEvolution
  publishedMessageId := some "commit"
  targets := [{ status := .failed, failure := some refusal, attemptCount := 1,
                lastAttemptAtMs := some 1000 }]
  postConfirmationWelcomes := []
  postConfirmationWelcomesPending := false
  mlsState := .rolledBack
  createdAtMs := 1000
  targets_length := rfl

theorem commitRefused_history : commitRefused.history "commit" =
    [.retired refusedRow .driver true, .rollbackCalled 9, .round [0] (.stored [some refusal])] := by
  decide +kernel

/-- Nothing was lost, and the commit is rolled back with nothing exposed. -/
theorem rollback_commitRefused :
    RollbackCalled (commitRefused.history "commit") ∧
      ∀ event ∈ commitRefused.history "commit", event.exposes = false := by
  have hcalled : RollbackCalled (commitRefused.history "commit") := by
    rw [commitRefused_history]
    exact ⟨9, .tail _ (.head _)⟩
  refine ⟨hcalled, (rollback_only_unexposed commitRefused_run "commit").1 ?_ hcalled⟩
  rw [commitRefused_history]
  intro event hmem hlost
  simp only [List.mem_cons, List.not_mem_nil, or_false] at hmem
  obtain rfl | rfl | rfl := hmem <;> cases hlost

/-- The row of the refused commit is retired with its one target failed. -/
theorem retired_commitRefused :
    commitRefused.history "commit" = [] ++ .retired refusedRow .driver true ::
        [.rollbackCalled 9, .round [0] (.stored [some refusal])] ∧
      (∀ target ∈ refusedRow.targets, target.status = .accepted ∨ target.status = .failed) ∧
      refusedRow.acceptedTargets = 0 := by
  have hretired : commitRefused.history "commit" = [] ++ .retired refusedRow .driver true ::
      [.rollbackCalled 9, .round [0] (.stored [some refusal])] := commitRefused_history
  have hdone := retired_when_done commitRefused_run hretired
  exact ⟨hretired, hdone.1, (hdone.2.2 (by simp)).2 (by decide) rfl⟩

/-- The commit is sent, and the process dies before the answer is stored. -/
def commitSent : AccountDeviceRuntime Bool :=
  (publishOneWithPostConfirmationWelcomes env 1000 (accepts "commit") commit
    (some ⟨9, .groupEvolution, []⟩) none [.done, .done, .killed] (account .groupEvolution)).store

/-- The relay is asked again, and is offline. -/
def commitResumed : AccountDeviceRuntime Bool :=
  (resumeOutboundFanoutsForGroup env 2000 refuses none [] commitSent).store

/-- The commit that the relay accepted is rolled back. -/
theorem rollback_after_cutOff :
    FanoutRun env commitResumed ∧ RollbackCalled (commitResumed.history "commit") ∧
      ∃ event ∈ commitResumed.history "commit", event.exposes = true := by
  have hsent : FanoutRun env commitSent := by
    unfold commitSent
    exact (account_start .groupEvolution).step (.publish _ _ _ _ _ _ rfl (.inr rfl))
  refine ⟨?_, ⟨9, by decide +kernel⟩, ⟨.round [0] .cutOff, by decide +kernel, rfl⟩⟩
  unfold commitResumed
  exact hsent.step (.resume _ _ _ _)

/-! #### The creation -/

def welcome : TransportMessage := ⟨messageId, [], "relay", .welcome [5]⟩

/-- The first Welcome is accepted and the creation confirmed, and the process dies after
the transaction. -/
def creationConfirmed : AccountDeviceRuntime Bool :=
  (publishOneWithPostConfirmationWelcomes env 1000 (accepts "first") (welcome "first")
    (some ⟨9, .createGroup, [welcome "second"]⟩) none (List.replicate 15 .done ++ [.killed])
    (account .createGroup)).store

def creationResumed : AccountDeviceRuntime Bool :=
  (resumeOutboundFanoutsForGroup env 2000 accepts none [] creationConfirmed).store

def confirmedRow : OutboundFanout where
  request := ⟨[7], welcome "first", .inbox [5] ["relay"], 1⟩
  groupId := some [1]
  applicationMessage := none
  pendingOriginMessageId := none
  pendingKind := some .createGroup
  publishedMessageId := some "first"
  targets := [{ status := .accepted, attemptCount := 1, lastAttemptAtMs := some 1000 }]
  postConfirmationWelcomes := [welcome "second"]
  postConfirmationWelcomesPending := true
  mlsState := .confirmed
  createdAtMs := 1000
  targets_length := rfl

theorem creationResumed_run : FanoutRun env creationResumed := by
  have hconfirmed : FanoutRun env creationConfirmed := by
    unfold creationConfirmed
    exact (account_start .createGroup).step (.publish _ _ _ _ _ _ rfl (.inr rfl))
  unfold creationResumed
  exact hconfirmed.step (.resume _ _ _ _)

theorem creationResumed_history : creationResumed.history "first" =
    [.retired confirmedRow .resume true, .confirmCalled 9, .round [0] (.stored [none])] := by
  decide +kernel

/-- The confirmed row is taken for a failed one, and the second Welcome is lost. -/
theorem retired_before_welcomes :
    FanoutRun env creationResumed ∧
      creationResumed.history "first" = [.retired confirmedRow .resume true, .confirmCalled 9,
        .round [0] (.stored [none])] ∧
      confirmedRow.mlsState = .confirmed ∧ 0 < confirmedRow.acceptedTargets ∧
      welcome "second" ∈ confirmedRow.postConfirmationWelcomes ∧
      ¬WelcomeHanded [.confirmCalled 9, .round [0] (.stored [none])] (welcome "second") :=
  ⟨creationResumed_run, creationResumed_history, rfl, by decide, .head _, by simp [WelcomeHanded]⟩

end OneRelay

end Mdk
