/-
Lifecycle calls of the Nostr adapter, and the subscriptions they leave open at the relays.

The calls of one adapter run one after the other, under its subscription lock.  A relay call
answers, fails, or is cut off with the lifecycle call that made it, in which case it may have
taken effect; of a batch of subscribe calls any part may have.

* `activateAccount`, `syncAccountGroups`, `deactivateAccount`, `installMaintenance`,
  `removeMaintenance` — the calls, with the answers of the relay client as arguments;
* `Served` — the live routes are open; `Tidy` — nothing else is, of an active account, unless
  its teardown is queued;
* `live_routes_stay_open`, `open_routes_are_accounted_for` — what follows for runs.
-/
import Mdk.NostrAdapter
import Mdk.Runs

namespace Mdk

open List

namespace NostrAdapter

/-- The routes of a sync are committed and its removals are queued. -/
def AdapterState.commitGroups (parse : String → Option String) (state : AdapterState)
    (accountId : MemberId) (groups : List TransportGroupSubscription)
    (diff : List NostrSubscription × List NostrSubscription) : AdapterState :=
  ((state.stageGroupRoutes parse diff.1).syncGroups parse accountId
    groups).queuePendingUnsubscribes diff.2

/-! ### The relay client -/

inductive Answer where
  | ok
  | failed
  | cancelled (effective : Bool)
deriving DecidableEq, Repr

def Answer.effective : Answer → Bool
  | ok => true
  | failed => false
  | cancelled effective => effective

def Answer.isCancelled : Answer → Bool
  | cancelled _ => true
  | ok | failed => false

/-- The end of concurrent subscribe calls, with those that took effect. -/
inductive Batch where
  | ok
  | failed (sent : List NostrSubscription)
  | cancelled (sent : List NostrSubscription)
deriving DecidableEq

/-- The adapter, and the subscriptions that are open at its relay client. -/
structure Adapter where
  state : AdapterState
  opened : List SubscriptionId

namespace Adapter

variable (parse : String → Option String) (relayKey : String → String) (adapter : Adapter)

def subscribe (subscriptions : List NostrSubscription) : Adapter :=
  { adapter with
    opened := subscriptions.map NostrSubscription.subscriptionId ++ adapter.opened }

def unsubscribe (subscriptionId : SubscriptionId) : Adapter :=
  { adapter with opened := adapter.opened.filter (· ≠ subscriptionId) }

variable (accountId : MemberId)

def unsubscribeAccount : Adapter :=
  { adapter with opened := adapter.opened.filter (·.route.accountId ≠ accountId) }

/-! ### The calls -/

/-- Registered routes are taken back. -/
def dropAccount : Adapter :=
  { adapter with
    state := (adapter.state.clearPendingUnsubscribesForAccount accountId).deactivate parse
      accountId }

/-- `unsubscribed` is the first relay call, `cleanup` the one after a failed batch. -/
def activateAccount (activation : TransportAccountActivation) (unsubscribed : Answer)
    (batch : Batch) (cleanup : Answer) : Adapter :=
  let closed := adapter.unsubscribeAccount activation.accountId
  let registered := { closed with state := closed.state.register parse relayKey activation }
  match unsubscribed, batch with
  | .failed, _ | .cancelled false, _ => adapter
  | .cancelled true, _ => closed
  | .ok, .ok =>
    registered.subscribe
      (activation.issued (adapter.state.nextActivationAttempt activation.accountId))
  | .ok, .cancelled sent => registered.subscribe sent
  | .ok, .failed sent =>
    let failed := registered.subscribe sent
    let cleaned := if cleanup.effective then failed.unsubscribeAccount activation.accountId
      else failed
    if cleanup.isCancelled then cleaned else cleaned.dropAccount parse activation.accountId

/-- Unsubscribe what was queued. -/
def drainPendingUnsubscribes (answers : NostrSubscription → Answer) :
    List NostrSubscription → Adapter → Adapter
  | [], adapter => adapter
  | subscription :: rest, adapter =>
    let closed := adapter.unsubscribe subscription.subscriptionId
    match answers subscription with
    | .ok => drainPendingUnsubscribes answers rest { closed with
        state := closed.state.removePendingUnsubscribeById subscription.subscriptionId }
    | .failed => drainPendingUnsubscribes answers rest adapter
    | .cancelled effective => if effective then closed else adapter

/-- Without `answers` the call is cut off before the first unsubscribe. -/
def syncAccountGroups (groups : List TransportGroupSubscription) (since : Option ℕ) (batch : Batch)
    (answers : Option (NostrSubscription → Answer)) : Adapter :=
  match adapter.state.accounts.get? accountId with
  | none => adapter
  | some routes =>
    let diff := diffGroupSubscriptions accountId routes.groups groups since routes.attempt
    let committed := adapter.state.commitGroups parse accountId groups diff
    match batch, answers with
    | .failed sent, _ | .cancelled sent, _ =>
      { adapter.subscribe sent with
        state := (adapter.state.stageGroupRoutes parse diff.1).rebuildTransportGroupIndex parse }
    | .ok, none => { adapter.subscribe diff.1 with state := committed }
    | .ok, some answers =>
      let pruned := committed.pruneLivePendingUnsubscribes
      drainPendingUnsubscribes answers pruned.pendingUnsubscribes
        { adapter.subscribe diff.1 with state := pruned }

def deactivateAccount (answer : Answer) : Adapter :=
  match answer with
  | .ok => (adapter.unsubscribeAccount accountId).dropAccount parse accountId
  | .failed | .cancelled false => adapter
  | .cancelled true => adapter.unsubscribeAccount accountId

variable (group : TransportGroupSubscription)

/-- A route that is refused, or whose call was cut off, is removed again. -/
def installMaintenance (answer : Answer) : Adapter :=
  let subscription := NostrSubscription.groupMaintenance accountId group
  let id := subscription.subscriptionId
  if adapter.state.accounts.get? accountId = none ∨
      (adapter.state.maintenanceRoutes.get? id).isSome then adapter
  else
    let installed := { adapter.state with
      maintenanceRoutes := adapter.state.maintenanceRoutes.upsert subscription }
    let opened := if answer.effective then adapter.subscribe [subscription] else adapter
    if answer = .ok then { opened with state := installed.rebuildTransportGroupIndex parse }
    else { opened with
      state := { installed with
        maintenanceRoutes := installed.maintenanceRoutes.erase id }.rebuildTransportGroupIndex
          parse }

def removeMaintenance (answer : Answer) : Adapter :=
  let subscription := NostrSubscription.groupMaintenance accountId group
  let id := subscription.subscriptionId
  let removed := ({ adapter.state with
    maintenanceRoutes := adapter.state.maintenanceRoutes.erase id }.rebuildTransportGroupIndex
      parse).queuePendingUnsubscribes [subscription]
  let closed := if answer.effective then adapter.unsubscribe id else adapter
  if answer = .ok then { closed with state := removed.removePendingUnsubscribeById id }
  else { closed with state := removed }

end Adapter

inductive LifecycleCall where
  | activate (activation : TransportAccountActivation) (unsubscribed : Answer) (batch : Batch)
      (cleanup : Answer)
  | sync (accountId : MemberId) (groups : List TransportGroupSubscription) (since : Option ℕ)
      (batch : Batch) (answers : Option (NostrSubscription → Answer))
  | deactivate (accountId : MemberId) (answer : Answer)
  | install (accountId : MemberId) (group : TransportGroupSubscription) (answer : Answer)
  | remove (accountId : MemberId) (group : TransportGroupSubscription) (answer : Answer)

section Calls

variable (parse : String → Option String) (relayKey : String → String) (adapter : Adapter)

def Adapter.call : LifecycleCall → Adapter
  | .activate activation unsubscribed batch cleanup =>
    adapter.activateAccount parse relayKey activation unsubscribed batch cleanup
  | .sync accountId groups since batch answers =>
    adapter.syncAccountGroups parse accountId groups since batch answers
  | .deactivate accountId answer => adapter.deactivateAccount parse accountId answer
  | .install accountId group answer => adapter.installMaintenance parse accountId group answer
  | .remove accountId group answer => adapter.removeMaintenance parse accountId group answer

/-- What a call asks the relays to open. -/
def LifecycleCall.requested : LifecycleCall → List NostrSubscription
  | .activate activation _ _ _ =>
    activation.issued (adapter.state.nextActivationAttempt activation.accountId)
  | .sync accountId groups since _ _ =>
    match adapter.state.accounts.get? accountId with
    | none => []
    | some routes =>
      (diffGroupSubscriptions accountId routes.groups groups since routes.attempt).1
  | .deactivate _ _ | .install _ _ _ | .remove _ _ _ => []

/-- A batch opens nothing that was not asked for. -/
def LifecycleCall.Possible (call : LifecycleCall) : Prop :=
  match call with
  | .activate _ _ (.failed sent) _ | .activate _ _ (.cancelled sent) _
  | .sync _ _ _ (.failed sent) _ | .sync _ _ _ (.cancelled sent) _ =>
    ∀ subscription ∈ sent, subscription ∈ call.requested adapter
  | _ => True

end Calls

/-! ### Live routes -/

namespace AdapterState

/-- The id of an inbox or group route of an active account, or of a maintenance route. -/
def Live (state : AdapterState) (id : SubscriptionId) : Prop :=
  (∃ routes, state.accounts.get? id.route.accountId = some routes ∧
    ∃ subscription ∈ routes.subscriptions, subscription.subscriptionId = id) ∨
  (state.maintenanceRoutes.get? id).isSome = true

/-- The route is live, or its teardown is queued. -/
def Accounted (state : AdapterState) (id : SubscriptionId) : Prop :=
  state.Live id ∨
    ∃ subscription ∈ state.pendingUnsubscribes, subscription.subscriptionId = id

end AdapterState

/-- The call is not cut off while it has a live route of its account closed: before the routes
it has closed are dropped, or before those it has registered are open. -/
def LifecycleCall.FinishesTeardown (adapter : Adapter) : LifecycleCall → Prop
  | .activate activation .ok (.cancelled sent) _
  | .activate activation .ok (.failed sent) (.cancelled false) =>
    activation.issued (adapter.state.nextActivationAttempt activation.accountId) ⊆ sent
  | .activate _ .ok (.failed _) (.cancelled true) => False
  | .activate activation (.cancelled true) _ _ =>
    ∀ id, adapter.state.Live id → id.route.accountId ≠ activation.accountId
  | .deactivate accountId (.cancelled true) =>
    ∀ id, adapter.state.Live id → id.route.accountId ≠ accountId
  | _ => True

/-- A group sync that does not go through, or an installation that is cut off, has opened
nothing that would stay open unnoticed. -/
def LifecycleCall.OpensNothing (adapter : Adapter) : LifecycleCall → Prop
  | .sync _ _ _ (.failed sent) _ | .sync _ _ _ (.cancelled sent) _ =>
    ∀ subscription ∈ sent, adapter.state.Accounted subscription.subscriptionId
  | .install accountId group (.cancelled true) =>
    (adapter.state.accounts.get? accountId).isSome = true →
      adapter.state.Accounted (NostrSubscription.groupMaintenance accountId group).subscriptionId
  | _ => True

namespace AdapterState

variable {state : AdapterState} {parse : String → Option String} {relayKey : String → String}
  {accountId : MemberId} {id : SubscriptionId}

/-- The index of the routes is not looked at. -/
theorem live_rebuild : (state.rebuildTransportGroupIndex parse).Live id ↔ state.Live id := .rfl

theorem forgetMaintenanceRoutes_isSome :
    ((state.forgetMaintenanceRoutes accountId).maintenanceRoutes.get? id).isSome = true ↔
      (state.maintenanceRoutes.get? id).isSome = true ∧ id.route.accountId ≠ accountId := by
  rw [forgetMaintenanceRoutes, KeyedTable.get?_filterMapRows]
  cases hget : state.maintenanceRoutes.get? id with
  | none => simp
  | some subscription =>
    have hid : id.route.accountId = subscription.accountId := by
      rw [← KeyedTable.key_of_get? hget, NostrSubscription.subscriptionId,
        NostrSubscription.accountId_routeKey]
    simp [Option.guard, hid]

theorem live_deactivate :
    (state.deactivate parse accountId).Live id ↔
      state.Live id ∧ id.route.accountId ≠ accountId := by
  show (∃ routes, (state.accounts.erase accountId).get? id.route.accountId = some routes ∧ _) ∨
    ((state.forgetMaintenanceRoutes accountId).maintenanceRoutes.get? id).isSome = true ↔ _
  rw [forgetMaintenanceRoutes_isSome]
  by_cases heq : id.route.accountId = accountId
  · simp [KeyedTable.get?_erase, heq]
  · simp [KeyedTable.get?_erase, heq, Ne.symm heq, Live]

/-- The routes of an activation have the ids under which it issues them. -/
theorem ids_issued (activation : TransportAccountActivation) (attempt : ℕ) :
    (activation.issued attempt).map NostrSubscription.subscriptionId =
      (⟨activation.accountId, activation.inboxEndpoints, activation.groupSubscriptions,
        attempt⟩ : AccountRoutes).subscriptions.map NostrSubscription.subscriptionId := by
  simp only [TransportAccountActivation.issued, AccountRoutes.subscriptions, groupSubscriptions,
    map_cons, map_map]
  rfl

/-- After a registration the account has its new routes, and the others have theirs. -/
theorem live_register {activation : TransportAccountActivation} :
    (state.register parse relayKey activation).Live id ↔
      (id ∈ (activation.issued (state.nextActivationAttempt activation.accountId)).map
        NostrSubscription.subscriptionId) ∧ id.route.accountId = activation.accountId ∨
      state.Live id ∧ id.route.accountId ≠ activation.accountId := by
  show (∃ routes, (state.accounts.upsert _).get? id.route.accountId = some routes ∧ _) ∨
    ((state.forgetMaintenanceRoutes _).maintenanceRoutes.get? id).isSome = true ↔ _
  rw [forgetMaintenanceRoutes_isSome, KeyedTable.get?_upsert, ids_issued]
  by_cases heq : id.route.accountId = activation.accountId
  · simp [heq]
  · simp [heq, Ne.symm heq, Live]

theorem mem_liveGroupRouteKeys {key : NostrSubscriptionRouteKey} :
    key ∈ state.liveGroupRouteKeys ↔ ∃ routes group,
      state.accounts.get? key.accountId = some routes ∧ group ∈ routes.groups ∧
        groupRouteKey routes.accountId group = key := by
  simp only [liveGroupRouteKeys, mem_flatMap, mem_map]
  constructor
  · rintro ⟨routes, hroutes, group, hgroup, rfl⟩
    exact ⟨routes, group, KeyedTable.mem_rows_iff.mp hroutes, hgroup, rfl⟩
  · rintro ⟨routes, group, hroutes, hgroup, heq⟩
    exact ⟨routes, (KeyedTable.get?_eq_some_iff.mp hroutes).1, group, hgroup, heq⟩

/-- A group route is live under its key and the attempt of its account. -/
theorem live_of_key {key : NostrSubscriptionRouteKey} (h : key ∈ state.liveGroupRouteKeys)
    {attempt : ℕ} (hattempt : ∀ routes, state.accounts.get? key.accountId = some routes →
      routes.attempt = attempt) : state.Live ⟨key, attempt⟩ := by
  obtain ⟨routes, group, hroutes, hgroup, hkey⟩ := mem_liveGroupRouteKeys.mp h
  refine .inl ⟨routes, hroutes, .group routes.accountId group none routes.attempt, ?_, ?_⟩
  · exact mem_cons_of_mem _ (mem_map.mpr ⟨group, hgroup, rfl⟩)
  · rw [← hattempt routes hroutes, ← hkey]
    rfl

variable {subscription : NostrSubscription}

/-- What is queued and not pruned is not live. -/
theorem not_live_of_mem_prune
    (h : subscription ∈ state.pruneLivePendingUnsubscribes.pendingUnsubscribes)
    (hkind : subscription.groupRoute?.isSome = true) :
    ¬ state.Live subscription.subscriptionId := by
  simp only [pruneLivePendingUnsubscribes, mem_filter, Bool.and_eq_true, decide_eq_true_eq,
    Option.isNone_iff_eq_none] at h
  obtain ⟨-, hkey, hmaintenance⟩ := h
  rintro (⟨routes, hroutes, live, hlive, hid⟩ | hsome)
  · rcases mem_cons.mp hlive with rfl | hlive
    · cases subscription with
      | accountInbox _ _ _ _ => cases hkind
      | group _ _ _ _ => cases congrArg SubscriptionId.route hid
      | groupMaintenance _ _ => cases congrArg SubscriptionId.route hid
    · obtain ⟨group, hgroup, rfl⟩ := mem_map.mp hlive
      have hroute := congrArg SubscriptionId.route hid
      exact hkey (mem_liveGroupRouteKeys.mpr ⟨routes, group, hroutes, hgroup, hroute⟩)
  · rw [hmaintenance] at hsome
    cases hsome

/-- What is pruned is live, if the queue belongs to the attempts that are. -/
theorem mem_prune_or_live (h : subscription ∈ state.pendingUnsubscribes)
    (hattempts : ∀ accountId group since attempt,
      NostrSubscription.group accountId group since attempt ∈ state.pendingUnsubscribes →
        ∀ routes, state.accounts.get? accountId = some routes → routes.attempt = attempt) :
    subscription ∈ state.pruneLivePendingUnsubscribes.pendingUnsubscribes ∨
      state.Live subscription.subscriptionId := by
  by_cases hkey : subscription.routeKey ∈ state.liveGroupRouteKeys
  · refine .inr (live_of_key hkey fun routes hroutes => ?_)
    cases subscription with
    | group accountId group since attempt =>
      exact hattempts accountId group since attempt h routes hroutes
    | accountInbox accountId endpoints since attempt =>
      obtain ⟨_, _, _, _, heq⟩ := mem_liveGroupRouteKeys.mp hkey
      cases heq
    | groupMaintenance accountId group =>
      obtain ⟨_, _, _, _, heq⟩ := mem_liveGroupRouteKeys.mp hkey
      cases heq
  · cases hget : state.maintenanceRoutes.get? subscription.subscriptionId with
    | none => exact .inl (mem_filter.mpr ⟨h, by simp [hkey, hget]⟩)
    | some row => exact .inr (.inr (by rw [hget]; rfl))

end AdapterState

open AdapterState

/-- Every live route is open, and only group routes wait for their teardown. -/
structure Served (adapter : Adapter) : Prop where
  live : ∀ id, adapter.state.Live id → id ∈ adapter.opened
  queued : ∀ subscription ∈ adapter.state.pendingUnsubscribes,
    subscription.groupRoute?.isSome = true

/-- What is open for an active account is live, or its teardown is queued. -/
structure Tidy (adapter : Adapter) : Prop where
  opened : ∀ id ∈ adapter.opened, (adapter.state.accounts.get? id.route.accountId).isSome = true →
    adapter.state.Accounted id
  attempts : ∀ accountId group since attempt,
    NostrSubscription.group accountId group since attempt ∈ adapter.state.pendingUnsubscribes →
      ∀ routes, adapter.state.accounts.get? accountId = some routes → routes.attempt = attempt

/-! ### The calls keep the routes -/

variable {parse : String → Option String} {relayKey : String → String} {adapter : Adapter}

/-- The routes of all accounts but one are open. -/
def OthersServed (accountId : MemberId) (adapter : Adapter) : Prop :=
  ∀ id, adapter.state.Live id → id.route.accountId ≠ accountId → id ∈ adapter.opened

variable {accountId : MemberId}

theorem OthersServed.unsubscribeAccount (h : OthersServed accountId adapter) :
    OthersServed accountId (adapter.unsubscribeAccount accountId) := fun id hlive hne =>
  mem_filter.mpr ⟨h id hlive hne, by simpa using hne⟩

theorem OthersServed.subscribe (h : OthersServed accountId adapter) (sent : List NostrSubscription)
    : OthersServed accountId (adapter.subscribe sent) :=
  fun id hlive hne => mem_append_right _ (h id hlive hne)

/-- An account that is dropped leaves the others. -/
theorem served_dropAccount (h : OthersServed accountId adapter)
    (hqueued : ∀ subscription ∈ adapter.state.pendingUnsubscribes,
      subscription.groupRoute?.isSome = true) : Served (adapter.dropAccount parse accountId) where
  live id hlive := by
    obtain ⟨hlive, hne⟩ := live_deactivate.mp hlive
    exact h id hlive hne
  queued subscription hmem := hqueued subscription (mem_of_mem_filter hmem)

/-- An activation before its subscribe calls. -/
def Adapter.registered (parse : String → Option String) (relayKey : String → String)
    (adapter : Adapter) (activation : TransportAccountActivation) : Adapter :=
  { adapter.unsubscribeAccount activation.accountId with
    state := adapter.state.register parse relayKey activation }

/-- An account without live routes may be closed. -/
theorem Served.unsubscribeAccount (h : Served adapter)
    (hlive : ∀ id, adapter.state.Live id → id.route.accountId ≠ accountId) :
    Served (adapter.unsubscribeAccount accountId) :=
  ⟨fun id hid => mem_filter.mpr ⟨h.live id hid, decide_eq_true (hlive id hid)⟩, h.queued⟩

theorem Served.activateAccount (h : Served adapter) {activation : TransportAccountActivation}
    {unsubscribed cleanup : Answer} {batch : Batch}
    (hfinishes : (LifecycleCall.activate activation unsubscribed batch
      cleanup).FinishesTeardown adapter) :
    Served (adapter.activateAccount parse relayKey activation unsubscribed batch cleanup) := by
  have hqueued : ∀ subscription ∈ (adapter.registered parse relayKey
      activation).state.pendingUnsubscribes, subscription.groupRoute?.isSome = true :=
    fun subscription hmem => h.queued subscription (mem_of_mem_filter hmem)
  -- Once the routes are registered, those of the other accounts are as they were.
  have hregistered : OthersServed activation.accountId
      (adapter.registered parse relayKey activation) := by
    intro id hlive hne
    rcases live_register.mp hlive with ⟨_, heq⟩ | ⟨hlive, _⟩
    · exact absurd heq hne
    · exact mem_filter.mpr ⟨h.live id hlive, by simpa using hne⟩
  have hsubscribed : ∀ sent,
      activation.issued (adapter.state.nextActivationAttempt activation.accountId) ⊆ sent →
      Served ((adapter.registered parse relayKey activation).subscribe sent) := by
    refine fun sent hsent => ⟨fun id hlive => ?_, hqueued⟩
    rcases live_register.mp hlive with ⟨hissued, _⟩ | ⟨_, hne⟩
    · exact mem_append_left _ (map_subset _ hsent hissued)
    · exact hregistered.subscribe _ id hlive hne
  unfold Adapter.activateAccount
  dsimp only
  split
  · exact h
  · exact h
  · exact h.unsubscribeAccount hfinishes
  · exact hsubscribed _ (List.Subset.refl _)
  · exact hsubscribed _ hfinishes
  · cases cleanup with
    | ok => exact served_dropAccount (hregistered.subscribe _).unsubscribeAccount hqueued
    | failed => exact served_dropAccount (hregistered.subscribe _) hqueued
    | cancelled effective =>
      cases effective with
      | false => exact hsubscribed _ hfinishes
      | true => exact hfinishes.elim

/-- What closing a route that is not live keeps, and taking one that is closed from the queue. -/
structure KeptByTeardown (I : Adapter → Prop) : Prop where
  unsubscribe : ∀ {adapter : Adapter} {id}, I adapter → ¬ adapter.state.Live id →
    I (adapter.unsubscribe id)
  removePending : ∀ {adapter : Adapter} {id}, I adapter → id ∉ adapter.opened →
    I { adapter with state := adapter.state.removePendingUnsubscribeById id }

theorem KeptByTeardown.drain {I : Adapter → Prop} (hI : KeptByTeardown I)
    {answers : NostrSubscription → Answer} {subscriptions : List NostrSubscription} (h : I adapter)
    (hlive : ∀ subscription ∈ subscriptions, ¬ adapter.state.Live subscription.subscriptionId) :
    I (Adapter.drainPendingUnsubscribes answers subscriptions adapter) := by
  induction subscriptions generalizing adapter with
  | nil => exact h
  | cons subscription rest ih =>
    have hrest := fun other hother => hlive other (mem_cons_of_mem _ hother)
    have hclosed := hI.unsubscribe h (hlive subscription mem_cons_self)
    rw [Adapter.drainPendingUnsubscribes]
    split
    · exact ih (hI.removePending hclosed (by simp [Adapter.unsubscribe])) hrest
    · exact ih h hrest
    · split
      · exact hclosed
      · exact h

theorem keptByTeardown_served : KeptByTeardown Served where
  unsubscribe {adapter closed} h hlive :=
    ⟨fun id hlive' => mem_filter.mpr ⟨h.live id hlive', by
      simpa using fun heq : id = closed => hlive (heq ▸ hlive')⟩, h.queued⟩
  removePending h _ :=
    ⟨h.live, fun subscription hmem => h.queued subscription (mem_of_mem_eraseP hmem)⟩

theorem keptByTeardown_tidy : KeptByTeardown Tidy where
  unsubscribe h _ := ⟨fun id hmem => h.opened id (mem_of_mem_filter hmem), h.attempts⟩
  removePending {adapter id} h hclosed := by
    refine ⟨fun id' hmem hsome => ?_, fun accountId group since attempt hmem =>
      h.attempts accountId group since attempt (mem_of_mem_eraseP hmem)⟩
    refine (h.opened id' hmem hsome).imp_right fun ⟨subscription, hqueued, hid⟩ => ?_
    refine ⟨subscription, (mem_eraseP_of_neg ?_).mpr hqueued, hid⟩
    simpa using fun heq : subscription.subscriptionId = id => hclosed (heq ▸ hid ▸ hmem)

/-! ### Group syncs -/

section Sync

variable {accountId : MemberId} {routes : AccountRoutes} {groups : List TransportGroupSubscription}
  {since : Option ℕ} {id : SubscriptionId} {current : List TransportGroupSubscription} {attempt : ℕ}

/-- A sync only adds desired routes. -/
theorem mem_added
    (h : id ∈ (diffGroupSubscriptions accountId current groups since attempt).1.map
      NostrSubscription.subscriptionId) :
    ∃ group ∈ groups, id = ⟨groupRouteKey accountId group, attempt⟩ := by
  simp only [diffGroupSubscriptions, groupSubscriptions, mem_map, mem_filter] at h
  obtain ⟨_, ⟨⟨group, hgroup, rfl⟩, -⟩, rfl⟩ := h
  exact ⟨group, hgroup, rfl⟩

theorem added_of_new {group : TransportGroupSubscription} (hgroup : group ∈ groups)
    (hnew : groupRouteKey accountId group ∉ current.map (groupRouteKey accountId)) :
    ⟨groupRouteKey accountId group, attempt⟩ ∈
      (diffGroupSubscriptions accountId current groups since attempt).1.map
        NostrSubscription.subscriptionId := by
  simp only [diffGroupSubscriptions, groupSubscriptions, mem_map, mem_filter]
  refine ⟨_, ⟨⟨group, hgroup, rfl⟩, ?_⟩, rfl⟩
  rw [Bool.or_eq_true]
  exact .inl (decide_eq_true (by simpa [NostrSubscription.routeKey] using hnew))

theorem mem_removed {subscription : NostrSubscription} :
    subscription ∈ (diffGroupSubscriptions accountId current groups since attempt).2 ↔
      ∃ group ∈ current, groupRouteKey accountId group ∉ groups.map (groupRouteKey accountId) ∧
        subscription = .group accountId group none attempt := by
  simp only [diffGroupSubscriptions, mem_filter, mem_map, decide_eq_true_eq]
  constructor
  · rintro ⟨⟨group, hgroup, rfl⟩, hnot⟩
    exact ⟨group, hgroup, by simpa [NostrSubscription.routeKey] using hnot, rfl⟩
  · rintro ⟨group, hgroup, hnot, rfl⟩
    exact ⟨⟨group, hgroup, rfl⟩, by simpa [NostrSubscription.routeKey] using hnot⟩

theorem mem_subscriptions :
    (∃ subscription ∈ routes.subscriptions, subscription.subscriptionId = id) ↔
      id = ⟨.accountInbox routes.accountId routes.inboxEndpoints.toFinset, routes.attempt⟩ ∨
        ∃ group ∈ routes.groups, id = ⟨groupRouteKey routes.accountId group, routes.attempt⟩ := by
  simp only [AccountRoutes.subscriptions, mem_cons, mem_map, exists_eq_or_imp,
    exists_exists_and_eq_and, eq_comm (a := id)]
  rfl

section Synced

variable {state : AdapterState} (hroutes : state.accounts.get? accountId = some routes)

/-- The state with other group routes of one account. -/
def synced (state : AdapterState) (routes : AccountRoutes)
    (groups : List TransportGroupSubscription) : AdapterState :=
  { state with accounts := state.accounts.upsert { routes with groups := groups } }

theorem get?_synced (other : MemberId) :
    (synced state routes groups).accounts.get? other =
      if routes.accountId = other then some { routes with groups := groups }
      else state.accounts.get? other := KeyedTable.get?_upsert _ _ _

include hroutes

theorem live_of_synced (hlive : (synced state routes groups).Live id) :
    state.Live id ∨ id ∈ (diffGroupSubscriptions accountId routes.groups groups since
      routes.attempt).1.map NostrSubscription.subscriptionId := by
  have haccount := KeyedTable.key_of_get? hroutes
  rcases hlive with ⟨found, hfound, hid⟩ | hmaintenance
  · rw [get?_synced] at hfound
    split at hfound
    · rename_i heq
      cases hfound
      have hold : ∀ h, state.Live id := fun h : ∃ s ∈ routes.subscriptions, s.subscriptionId = id =>
        .inl ⟨routes, by rw [← heq, haccount, hroutes], h⟩
      rcases mem_subscriptions.mp hid with hinbox | ⟨group, hgroup, hid⟩
      · exact .inl (hold (mem_subscriptions.mpr (.inl hinbox)))
      · -- A route that is kept has the id it had.
        by_cases hkey : groupRouteKey accountId group ∈ routes.groups.map (groupRouteKey accountId)
        · obtain ⟨current, hcurrent, hkey⟩ := mem_map.mp hkey
          refine .inl (hold (mem_subscriptions.mpr (.inr ⟨current, hcurrent, ?_⟩)))
          rw [hid, haccount, hkey]
        · rw [hid, haccount]
          exact .inr (added_of_new hgroup hkey)
    · exact .inl (.inl ⟨found, hfound, hid⟩)
  · exact .inl (.inr hmaintenance)

theorem live_synced_of_added (hid : id ∈ (diffGroupSubscriptions accountId routes.groups groups
    since routes.attempt).1.map NostrSubscription.subscriptionId) :
    (synced state routes groups).Live id := by
  obtain ⟨group, hgroup, rfl⟩ := mem_added hid
  have haccount := KeyedTable.key_of_get? hroutes
  refine .inl ⟨{ routes with groups := groups }, ?_,
    mem_subscriptions.mpr (.inr ⟨group, hgroup, ?_⟩)⟩
  · rw [get?_synced, if_pos (by rw [haccount]; rfl)]
  · rw [haccount]

theorem live_synced_or_removed (hlive : state.Live id) :
    (synced state routes groups).Live id ∨ ∃ subscription ∈
      (diffGroupSubscriptions accountId routes.groups groups since routes.attempt).2,
        subscription.subscriptionId = id := by
  have haccount := KeyedTable.key_of_get? hroutes
  rcases hlive with ⟨found, hfound, hid⟩ | hmaintenance
  · by_cases heq : routes.accountId = id.route.accountId
    · obtain rfl : routes = found := by
        rw [← heq, haccount, hroutes] at hfound
        exact Option.some.inj hfound
      have hnew : ∀ h, (synced state routes groups).Live id :=
        fun h : ∃ s ∈ ({ routes with groups := groups } : AccountRoutes).subscriptions,
            s.subscriptionId = id =>
          .inl ⟨{ routes with groups := groups }, by rw [get?_synced, if_pos heq], h⟩
      rcases mem_subscriptions.mp hid with hinbox | ⟨group, hgroup, hid⟩
      · exact .inl (hnew (mem_subscriptions.mpr (.inl hinbox)))
      · by_cases hkey : groupRouteKey accountId group ∈ groups.map (groupRouteKey accountId)
        · obtain ⟨desired, hdesired, hkey⟩ := mem_map.mp hkey
          refine .inl (hnew (mem_subscriptions.mpr (.inr ⟨desired, hdesired, ?_⟩)))
          rw [hid, haccount, hkey]
        · refine .inr ⟨_, mem_removed.mpr ⟨group, hgroup, hkey, rfl⟩, ?_⟩
          rw [hid, haccount]
          rfl
    · exact .inl (.inl ⟨found, by rw [get?_synced, if_neg heq, hfound], hid⟩)
  · exact .inl (.inr hmaintenance)

/-- A sync changes no attempt. -/
theorem attempt_synced {other : MemberId} {found : AccountRoutes}
    (h : (synced state routes groups).accounts.get? other = some found) :
    ∃ old, state.accounts.get? other = some old ∧ old.attempt = found.attempt := by
  rw [get?_synced] at h
  split at h
  · rename_i heq
    cases h
    exact ⟨routes, by rw [← heq, KeyedTable.key_of_get? hroutes, hroutes], rfl⟩
  · exact ⟨found, h, rfl⟩

end Synced

/-! #### The queue -/

variable {pending subscriptions : List NostrSubscription}

theorem mem_queued {subscription : NostrSubscription}
    (h : subscription ∈ subscriptions.foldl queuePendingUnsubscribe pending) :
    subscription ∈ pending ∨ subscription ∈ subscriptions := by
  induction subscriptions generalizing pending with
  | nil => exact .inl h
  | cons first rest ih =>
    rcases ih h with hmem | hmem
    · unfold queuePendingUnsubscribe at hmem
      split at hmem
      · exact .inl hmem
      · refine (mem_append.mp hmem).imp_right fun h => ?_
        rw [mem_singleton.mp h]
        exact mem_cons_self
    · exact .inr (.tail _ hmem)

/-- Everything that is asked for is in the queue, by its id. -/
theorem exists_queued {id : SubscriptionId}
    (h : (∃ subscription ∈ pending, subscription.subscriptionId = id) ∨
      ∃ subscription ∈ subscriptions, subscription.subscriptionId = id) :
    ∃ subscription ∈ subscriptions.foldl queuePendingUnsubscribe pending,
      subscription.subscriptionId = id := by
  induction subscriptions generalizing pending with
  | nil => exact h.resolve_right nofun
  | cons first rest ih =>
    have hfirst : (∃ subscription ∈ pending, subscription.subscriptionId = id) ∨
        first.subscriptionId = id →
        ∃ queued ∈ queuePendingUnsubscribe pending first, queued.subscriptionId = id := by
      intro hor
      unfold queuePendingUnsubscribe
      split
      · rename_i hany
        obtain ⟨queued, hqueued, heq⟩ := any_eq_true.mp hany
        exact hor.elim (fun h => h) fun hid => ⟨queued, hqueued, (of_decide_eq_true heq).trans hid⟩
      · rcases hor with ⟨queued, hqueued, heq⟩ | hid
        · exact ⟨queued, mem_append_left _ hqueued, heq⟩
        · exact ⟨first, mem_append_right _ (.head _), hid⟩
    refine ih ?_
    rcases h with hpending | ⟨subscription, hmem, hid⟩
    · exact .inl (hfirst (.inl hpending))
    · rcases mem_cons.mp hmem with rfl | hmem
      · exact .inl (hfirst (.inr hid))
      · exact .inr ⟨subscription, hmem, hid⟩

/-- The state a sync commits. -/
def committed (parse : String → Option String) (state : AdapterState) (routes : AccountRoutes)
    (groups : List TransportGroupSubscription)
    (diff : List NostrSubscription × List NostrSubscription) : AdapterState :=
  ((synced (state.stageGroupRoutes parse diff.1) routes groups).rebuildTransportGroupIndex
    parse).queuePendingUnsubscribes diff.2

section Committed

variable {diff : List NostrSubscription × List NostrSubscription}
  (hroutes : adapter.state.accounts.get? accountId = some routes)
  (hdiff : diffGroupSubscriptions accountId routes.groups groups since routes.attempt = diff)

include hroutes in
theorem commitGroups_eq :
    adapter.state.commitGroups parse accountId groups diff =
      committed parse adapter.state routes groups diff := by
  have hstaged : (adapter.state.stageGroupRoutes parse diff.1).accounts.get? accountId =
      some routes := hroutes
  rw [AdapterState.commitGroups, AdapterState.syncGroups, hstaged]
  rfl

include hdiff

theorem Served.committed_queued (h : Served adapter) : ∀ subscription ∈
    (committed parse adapter.state routes groups diff).pendingUnsubscribes,
      subscription.groupRoute?.isSome = true := by
  intro subscription hmem
  rcases mem_queued hmem with hmem | hmem
  · exact h.queued subscription hmem
  · rw [← hdiff] at hmem
    obtain ⟨group, _, _, rfl⟩ := mem_removed.mp hmem
    rfl

/-- A drain only closes what is not live. -/
theorem Served.not_live_of_committed (h : Served adapter) {subscription : NostrSubscription}
    (hmem : subscription ∈ (committed parse adapter.state routes groups
      diff).pruneLivePendingUnsubscribes.pendingUnsubscribes) :
    ¬ (committed parse adapter.state routes groups diff).pruneLivePendingUnsubscribes.Live
      subscription.subscriptionId :=
  fun hlive => not_live_of_mem_prune hmem
    (h.committed_queued hdiff subscription (mem_of_mem_filter hmem)) hlive

include hroutes

theorem Tidy.committed_attempts (h : Tidy adapter) : ∀ other group since attempt,
    NostrSubscription.group other group since attempt ∈
      (committed parse adapter.state routes groups diff).pendingUnsubscribes →
    ∀ found, (committed parse adapter.state routes groups diff).accounts.get? other = some found →
      found.attempt = attempt := by
  intro other group since attempt hmem found hfound
  obtain ⟨old, hold, heq⟩ := attempt_synced hroutes hfound
  rw [← heq]
  rcases mem_queued hmem with hmem | hmem
  · exact h.attempts other group since attempt hmem old hold
  · rw [← hdiff] at hmem
    obtain ⟨_, _, _, hremoved⟩ := mem_removed.mp hmem
    cases hremoved
    rw [Option.some.inj (hold.symm.trans hroutes)]

/-- What was open and is not live any more is queued. -/
theorem Tidy.committed_opened (h : Tidy adapter) (hopened : id ∈ adapter.opened)
    (hsome : ((committed parse adapter.state routes groups diff).accounts.get?
      id.route.accountId).isSome = true) :
    (committed parse adapter.state routes groups diff).pruneLivePendingUnsubscribes.Accounted
      id := by
  suffices hid : (committed parse adapter.state routes groups diff).Accounted id by
    rcases hid with hlive | ⟨subscription, hmem, rfl⟩
    · exact .inl hlive
    · exact (mem_prune_or_live hmem (h.committed_attempts hroutes hdiff)).symm.imp_right
        fun hmem => ⟨subscription, hmem, rfl⟩
  obtain ⟨found, hfound⟩ := Option.isSome_iff_exists.mp hsome
  obtain ⟨old, hold, _⟩ := attempt_synced hroutes hfound
  rcases h.opened id hopened (by rw [hold]; rfl) with hlive | hpending
  · rcases live_synced_or_removed hroutes hlive with hlive | hremoved
    · exact .inl hlive
    · exact .inr (exists_queued (.inr (hdiff ▸ hremoved)))
  · exact .inr (exists_queued (.inl hpending))

end Committed

theorem Served.syncAccountGroups (h : Served adapter) {batch : Batch}
    {answers : Option (NostrSubscription → Answer)} :
    Served (adapter.syncAccountGroups parse accountId groups since batch answers) := by
  unfold Adapter.syncAccountGroups
  split
  · exact h
  rename_i routes hroutes
  generalize hdiff : diffGroupSubscriptions accountId routes.groups groups since
    routes.attempt = diff
  dsimp only
  rw [commitGroups_eq hroutes]
  have hcommitted : Served { adapter.subscribe diff.1 with
      state := committed parse adapter.state routes groups diff } := by
    refine ⟨fun id hlive => ?_, h.committed_queued hdiff⟩
    rcases live_of_synced hroutes hlive with hlive | hadded
    · exact mem_append_right _ (h.live id hlive)
    · exact mem_append_left _ (hdiff ▸ hadded)
  split
  · exact ⟨fun id hlive => mem_append_right _ (h.live id hlive), h.queued⟩
  · exact ⟨fun id hlive => mem_append_right _ (h.live id hlive), h.queued⟩
  · exact hcommitted
  · exact keptByTeardown_served.drain
      ⟨hcommitted.live, fun _ hmem => hcommitted.queued _ (mem_of_mem_filter hmem)⟩
      fun _ hmem => h.not_live_of_committed hdiff hmem

/-- What is live or queued may be opened again. -/
theorem Tidy.subscribe (h : Tidy adapter) {sent : List NostrSubscription}
    (hsent : ∀ subscription ∈ sent, adapter.state.Accounted subscription.subscriptionId) :
    Tidy (adapter.subscribe sent) where
  opened id hmem hsome := by
    rcases mem_append.mp hmem with hmem | hmem
    · obtain ⟨subscription, hin, rfl⟩ := mem_map.mp hmem
      exact hsent subscription hin
    · exact h.opened id hmem hsome
  attempts := h.attempts

theorem Tidy.syncAccountGroups (h : Tidy adapter) (hserved : Served adapter) {batch : Batch}
    {answers : Option (NostrSubscription → Answer)}
    (hopens : (LifecycleCall.sync accountId groups since batch answers).OpensNothing adapter) :
    Tidy (adapter.syncAccountGroups parse accountId groups since batch answers) := by
  unfold Adapter.syncAccountGroups
  split
  · exact h
  rename_i routes hroutes
  generalize hdiff : diffGroupSubscriptions accountId routes.groups groups since
    routes.attempt = diff
  dsimp only
  rw [commitGroups_eq hroutes]
  have hpruned : Tidy { adapter.subscribe diff.1 with state :=
      (committed parse adapter.state routes groups diff).pruneLivePendingUnsubscribes } := by
    refine ⟨fun id hmem hsome => ?_, fun other group since attempt hmem =>
      h.committed_attempts hroutes hdiff other group since attempt (mem_of_mem_filter hmem)⟩
    rcases mem_append.mp hmem with hadded | hmem
    · exact .inl (live_synced_of_added hroutes (hdiff ▸ hadded))
    · exact h.committed_opened hroutes hdiff hmem hsome
  split
  · obtain ⟨hopened, hattempts⟩ := h.subscribe hopens
    exact ⟨hopened, hattempts⟩
  · obtain ⟨hopened, hattempts⟩ := h.subscribe hopens
    exact ⟨hopened, hattempts⟩
  · exact ⟨fun id hmem hsome => (hpruned.opened id hmem hsome).imp_right
      fun ⟨queued, hqueued, hid⟩ => ⟨queued, mem_of_mem_filter hqueued, hid⟩,
      h.committed_attempts hroutes hdiff⟩
  · exact keptByTeardown_tidy.drain hpruned fun _ hmem => hserved.not_live_of_committed hdiff hmem

end Sync

/-! ### The other calls -/

section Others

variable {accountId : MemberId} {group : TransportGroupSubscription} {answer : Answer}
  {id : SubscriptionId}

theorem Served.deactivateAccount (h : Served adapter)
    (hfinishes : (LifecycleCall.deactivate accountId answer).FinishesTeardown adapter) :
    Served (adapter.deactivateAccount parse accountId answer) := by
  have hothers : OthersServed accountId adapter := fun id hlive _ => h.live id hlive
  unfold Adapter.deactivateAccount
  split
  · exact served_dropAccount hothers.unsubscribeAccount h.queued
  · exact h
  · exact h
  · exact h.unsubscribeAccount hfinishes

/-- A maintenance route is live where it is registered, and nowhere else. -/
theorem live_maintenance {state : AdapterState} :
    state.Live (NostrSubscription.groupMaintenance accountId group).subscriptionId ↔
      (state.maintenanceRoutes.get?
        (NostrSubscription.groupMaintenance accountId group).subscriptionId).isSome = true := by
  refine ⟨fun h => h.resolve_left ?_, .inr⟩
  rintro ⟨routes, _, hid⟩
  rcases mem_subscriptions.mp hid with heq | ⟨_, _, heq⟩
  · cases congrArg SubscriptionId.route heq
  · cases congrArg SubscriptionId.route heq

/-- The maintenance routes with one more, or one less. -/
theorem live_upsert_maintenance {state : AdapterState} {subscription : NostrSubscription} :
    ({ state with maintenanceRoutes := state.maintenanceRoutes.upsert subscription }).Live id ↔
      id = subscription.subscriptionId ∨ state.Live id := by
  by_cases heq : subscription.subscriptionId = id
  · simp [Live, KeyedTable.get?_upsert, heq]
  · simp [Live, KeyedTable.get?_upsert, heq, Ne.symm heq]

section Erase

variable {state : AdapterState} {table : KeyedTable NostrSubscription.subscriptionId}
  {removed : SubscriptionId}

theorem live_of_erase (h : ({ state with maintenanceRoutes := table.erase removed }).Live id) :
    ({ state with maintenanceRoutes := table }).Live id := by
  refine h.imp_right fun hsome => ?_
  rw [KeyedTable.get?_erase] at hsome
  split at hsome
  · cases hsome
  · exact hsome

theorem live_erase (hne : id ≠ removed) (h : ({ state with maintenanceRoutes := table }).Live id) :
    ({ state with maintenanceRoutes := table.erase removed }).Live id := by
  refine h.imp_right fun hsome => ?_
  rw [KeyedTable.get?_erase, if_neg (Ne.symm hne)]
  exact hsome

theorem not_live_erase
    (hremoved : (NostrSubscription.groupMaintenance accountId group).subscriptionId = removed) :
    ¬ ({ state with maintenanceRoutes := table.erase removed }).Live removed := by
  subst hremoved
  rw [live_maintenance, KeyedTable.get?_erase, if_pos rfl]
  exact nofun

end Erase

theorem Served.installMaintenance (h : Served adapter) :
    Served (adapter.installMaintenance parse accountId group answer) := by
  unfold Adapter.installMaintenance
  dsimp only
  split
  · exact h
  split
  · rename_i hok
    subst hok
    refine ⟨fun id hlive => ?_, h.queued⟩
    rcases live_upsert_maintenance.mp (live_rebuild.mp hlive) with rfl | hlive
    · exact mem_cons_self
    · exact mem_cons_of_mem _ (h.live id hlive)
  · refine ⟨fun id hlive => ?_, h.queued⟩
    rcases live_upsert_maintenance.mp (live_of_erase (live_rebuild.mp hlive)) with rfl | hold
    · exact absurd (live_rebuild.mp hlive) (not_live_erase rfl)
    · split
      · exact mem_cons_of_mem _ (h.live id hold)
      · exact h.live id hold

theorem Tidy.installMaintenance (h : Tidy adapter)
    (hopens : (LifecycleCall.install accountId group answer).OpensNothing adapter) :
    Tidy (adapter.installMaintenance parse accountId group answer) := by
  unfold Adapter.installMaintenance
  dsimp only
  split
  · exact h
  rename_i hnew
  split
  · rename_i hok
    subst hok
    refine ⟨fun id hmem hsome => ?_, h.attempts⟩
    rcases mem_cons.mp hmem with rfl | hmem
    · exact .inl (live_rebuild.mpr (live_upsert_maintenance.mpr (.inl rfl)))
    · exact (h.opened id hmem hsome).imp_left fun hlive =>
        live_rebuild.mpr (live_upsert_maintenance.mpr (.inr hlive))
  · rename_i hnot
    rw [not_or, ← Option.ne_none_iff_isSome, not_not] at hnew
    -- Whatever the subscribe did, what is open is accounted for in the state before.
    have hopened : Tidy (if answer.effective then adapter.subscribe
        [.groupMaintenance accountId group] else adapter) := by
      cases answer with
      | ok => exact absurd rfl hnot
      | failed => exact h
      | cancelled effective =>
        cases effective with
        | false => exact h
        | true =>
          refine h.subscribe fun _ hmem => ?_
          rw [mem_singleton.mp hmem]
          exact hopens (Option.ne_none_iff_isSome.mp hnew.1)
    have hstate : (if answer.effective then adapter.subscribe
        [.groupMaintenance accountId group] else adapter).state = adapter.state := by
      split <;> rfl
    refine ⟨fun id hmem hsome => ?_, h.attempts⟩
    have haccounted := hopened.opened id hmem (hstate ▸ hsome)
    rw [hstate] at haccounted
    refine haccounted.imp_left fun hlive => ?_
    refine live_rebuild.mpr (live_erase ?_ (live_upsert_maintenance.mpr (.inr hlive)))
    rintro rfl
    have hsome := live_maintenance.mp hlive
    rw [hnew.2] at hsome
    cases hsome

/-- The routes without one for maintenance, whose teardown is queued. -/
def withoutMaintenance (parse : String → Option String) (adapter : Adapter)
    (subscription : NostrSubscription) : Adapter :=
  { adapter with
    state := ({ adapter.state with
      maintenanceRoutes := adapter.state.maintenanceRoutes.erase
        subscription.subscriptionId }.rebuildTransportGroupIndex parse).queuePendingUnsubscribes
          [subscription] }

theorem not_live_withoutMaintenance :
    ¬ (withoutMaintenance parse adapter (.groupMaintenance accountId group)).state.Live
      (NostrSubscription.groupMaintenance accountId group).subscriptionId :=
  not_live_erase rfl

theorem Served.withoutMaintenance (h : Served adapter) :
    Served (withoutMaintenance parse adapter (.groupMaintenance accountId group)) where
  live id hlive := h.live id (live_of_erase hlive)
  queued subscription hmem := by
    rcases mem_queued hmem with hmem | hmem
    · exact h.queued subscription hmem
    · rw [mem_singleton.mp hmem]
      rfl

theorem Tidy.withoutMaintenance (h : Tidy adapter) :
    Tidy (withoutMaintenance parse adapter (.groupMaintenance accountId group)) where
  opened id hmem hsome := by
    by_cases hid : id = (NostrSubscription.groupMaintenance accountId group).subscriptionId
    · exact .inr (exists_queued (.inr ⟨_, mem_singleton_self _, hid.symm⟩))
    · rcases h.opened id hmem hsome with hlive | hqueued
      · exact .inl (live_erase hid hlive)
      · exact .inr (exists_queued (.inl hqueued))
  attempts other group since attempt hmem := by
    rcases mem_queued hmem with hmem | hmem
    · exact h.attempts other group since attempt hmem
    · cases mem_singleton.mp hmem

theorem KeptByTeardown.removeMaintenance {I : Adapter → Prop} (hI : KeptByTeardown I)
    (h : I (withoutMaintenance parse adapter (.groupMaintenance accountId group))) :
    I (adapter.removeMaintenance parse accountId group answer) := by
  have hclosed := hI.unsubscribe h not_live_withoutMaintenance
  cases answer with
  | ok => exact hI.removePending hclosed (by simp [Adapter.unsubscribe])
  | failed => exact h
  | cancelled effective =>
    cases effective with
    | false => exact h
    | true => exact hclosed

/-! ### Accounts come and go -/

/-- `Tidy`, for all accounts but one. -/
structure OthersTidy (accountId : MemberId) (adapter : Adapter) : Prop where
  opened : ∀ id ∈ adapter.opened, id.route.accountId ≠ accountId →
    (adapter.state.accounts.get? id.route.accountId).isSome = true → adapter.state.Accounted id
  attempts : ∀ other group since attempt, other ≠ accountId →
    NostrSubscription.group other group since attempt ∈ adapter.state.pendingUnsubscribes →
      ∀ routes, adapter.state.accounts.get? other = some routes → routes.attempt = attempt

theorem OthersTidy.unsubscribeAccount (h : OthersTidy accountId adapter) :
    OthersTidy accountId (adapter.unsubscribeAccount accountId) :=
  ⟨fun id hmem => h.opened id (mem_of_mem_filter hmem), h.attempts⟩

theorem OthersTidy.subscribe (h : OthersTidy accountId adapter) {sent : List NostrSubscription}
    (hsent : ∀ subscription ∈ sent, subscription.accountId = accountId) :
    OthersTidy accountId (adapter.subscribe sent) := by
  refine ⟨fun id hmem hne hsome => ?_, h.attempts⟩
  rcases mem_append.mp hmem with hmem | hmem
  · obtain ⟨subscription, hin, rfl⟩ := mem_map.mp hmem
    exact absurd ((NostrSubscription.accountId_routeKey _).trans (hsent subscription hin)) hne
  · exact h.opened id hmem hne hsome

/-- The queue without one account still has what waits for the others. -/
theorem exists_cleared {pending : List NostrSubscription} {id : SubscriptionId}
    (h : ∃ subscription ∈ pending, subscription.subscriptionId = id)
    (hne : id.route.accountId ≠ accountId) :
    ∃ queued ∈ pending.filter (·.accountId ≠ accountId), queued.subscriptionId = id := by
  obtain ⟨subscription, hmem, rfl⟩ := h
  rw [NostrSubscription.subscriptionId, NostrSubscription.accountId_routeKey] at hne
  exact ⟨subscription, mem_filter.mpr ⟨hmem, by simpa using hne⟩, rfl⟩

theorem OthersTidy.dropAccount (h : OthersTidy accountId adapter) :
    Tidy (adapter.dropAccount parse accountId) := by
  have hget : ∀ other, (adapter.dropAccount parse accountId).state.accounts.get? other =
      if accountId = other then none else adapter.state.accounts.get? other :=
    KeyedTable.get?_erase _ _
  refine ⟨fun id hmem hsome => ?_, fun other group since attempt hmem routes hroutes => ?_⟩
  · rw [hget] at hsome
    split at hsome
    · cases hsome
    · rename_i hne
      exact (h.opened id hmem (Ne.symm hne) hsome).imp
        (fun hlive => live_deactivate.mpr ⟨hlive, Ne.symm hne⟩)
        fun hqueued => exists_cleared hqueued (Ne.symm hne)
  · rw [hget] at hroutes
    split at hroutes
    · cases hroutes
    · rename_i hne
      exact h.attempts other group since attempt (Ne.symm hne) (mem_of_mem_filter hmem)
        routes hroutes

theorem Tidy.others (h : Tidy adapter) : OthersTidy accountId adapter :=
  ⟨fun id hmem _ => h.opened id hmem, fun other group since attempt _ =>
    h.attempts other group since attempt⟩

theorem Tidy.unsubscribeAccount (h : Tidy adapter) : Tidy (adapter.unsubscribeAccount accountId) :=
  ⟨fun id hmem => h.opened id (mem_of_mem_filter hmem), h.attempts⟩

theorem Tidy.deactivateAccount (h : Tidy adapter) :
    Tidy (adapter.deactivateAccount parse accountId answer) := by
  unfold Adapter.deactivateAccount
  split
  · exact h.others.unsubscribeAccount.dropAccount
  · exact h
  · exact h
  · exact h.unsubscribeAccount

theorem accountId_of_issued {activation : TransportAccountActivation} {attempt : ℕ}
    {subscription : NostrSubscription} (h : subscription ∈ activation.issued attempt) :
    subscription.accountId = activation.accountId := by
  rcases mem_cons.mp h with rfl | h
  · rfl
  · obtain ⟨group, _, rfl⟩ := mem_map.mp h
    rfl

section Activate

variable {activation : TransportAccountActivation}

/-- A registration keeps the routes of the others, and its own account has nothing queued. -/
theorem OthersTidy.register (h : OthersTidy activation.accountId adapter) :
    OthersTidy activation.accountId
      { adapter with state := adapter.state.register parse relayKey activation } := by
  have hget : ∀ other, (adapter.state.register parse relayKey activation).accounts.get? other =
      if activation.accountId = other then _ else adapter.state.accounts.get? other :=
    KeyedTable.get?_upsert _ _
  refine ⟨fun id hmem hne hsome => ?_, fun other group since attempt hne hmem routes hroutes => ?_⟩
  · rw [hget, if_neg (Ne.symm hne)] at hsome
    exact (h.opened id hmem hne hsome).imp (fun hlive => live_register.mpr (.inr ⟨hlive, hne⟩))
      fun hqueued => exists_cleared hqueued hne
  · rw [hget, if_neg (Ne.symm hne)] at hroutes
    exact h.attempts other group since attempt hne (mem_of_mem_filter hmem) routes hroutes

theorem Tidy.activateAccount (h : Tidy adapter) {unsubscribed cleanup : Answer} {batch : Batch}
    (hpossible : (LifecycleCall.activate activation unsubscribed batch cleanup).Possible adapter) :
    Tidy (adapter.activateAccount parse relayKey activation unsubscribed batch cleanup) := by
  -- What an activation opens is live, however much of it is opened.
  have hsubscribed : ∀ sent,
      sent ⊆ activation.issued (adapter.state.nextActivationAttempt activation.accountId) →
      Tidy ((adapter.registered parse relayKey activation).subscribe sent) := by
    intro sent hsent
    have hothers : OthersTidy activation.accountId
        ((adapter.registered parse relayKey activation).subscribe sent) :=
      OthersTidy.subscribe h.others.unsubscribeAccount.register fun _ hmem =>
        accountId_of_issued (hsent hmem)
    refine ⟨fun id hmem hsome => ?_, fun other group since attempt hmem => ?_⟩
    · by_cases hid : id.route.accountId = activation.accountId
      · rcases mem_append.mp hmem with hissued | hmem
        · exact .inl (live_register.mpr (.inl ⟨map_subset _ hsent hissued, hid⟩))
        · exact absurd hid (by simpa using (mem_filter.mp hmem).2)
      · exact hothers.opened id hmem hid hsome
    · -- Nothing is queued for the account itself.
      exact hothers.attempts other group since attempt
        (of_decide_eq_true (mem_filter.mp hmem).2) hmem
  unfold Adapter.activateAccount
  dsimp only
  split
  · exact h
  · exact h
  · exact h.unsubscribeAccount
  · exact hsubscribed _ (List.Subset.refl _)
  · exact hsubscribed _ fun _ hmem => hpossible _ hmem
  · have hfailed := hsubscribed _ fun _ hmem => hpossible _ hmem
    cases cleanup with
    | ok => exact hfailed.unsubscribeAccount.others.dropAccount
    | failed => exact hfailed.others.dropAccount
    | cancelled effective =>
      cases effective with
      | false => exact hfailed
      | true => exact hfailed.unsubscribeAccount

end Activate

end Others

/-! ### Runs -/

/-- The adapter before its first call. -/
def Adapter.fresh : Adapter := ⟨.empty, []⟩

theorem served_fresh : Served .fresh where
  live id hlive := by
    rcases hlive with ⟨routes, hroutes, _⟩ | hsome
    · cases hroutes
    · cases hsome
  queued := nofun

theorem tidy_fresh : Tidy .fresh := ⟨nofun, nofun⟩

theorem Served.call (h : Served adapter) {call : LifecycleCall}
    (hfinishes : call.FinishesTeardown adapter) : Served (adapter.call parse relayKey call) := by
  cases call with
  | activate activation unsubscribed batch cleanup => exact h.activateAccount hfinishes
  | sync accountId groups since batch answers => exact h.syncAccountGroups
  | deactivate accountId answer => exact h.deactivateAccount hfinishes
  | install accountId group answer => exact h.installMaintenance
  | remove accountId group answer =>
    exact keptByTeardown_served.removeMaintenance h.withoutMaintenance

theorem Tidy.call (h : Tidy adapter) (hserved : Served adapter) {call : LifecycleCall}
    (hpossible : call.Possible adapter) (hopens : call.OpensNothing adapter) :
    Tidy (adapter.call parse relayKey call) := by
  cases call with
  | activate activation unsubscribed batch cleanup => exact h.activateAccount hpossible
  | sync accountId groups since batch answers => exact h.syncAccountGroups hserved hopens
  | deactivate accountId answer => exact h.deactivateAccount
  | install accountId group answer => exact h.installMaintenance hopens
  | remove accountId group answer =>
    exact keptByTeardown_tidy.removeMaintenance h.withoutMaintenance

/-- The adapter after a run of calls. -/
def Adapter.after (parse : String → Option String) (relayKey : String → String)
    (calls : List LifecycleCall) : Adapter :=
  calls.foldl (Adapter.call parse relayKey) .fresh

/-- **No teardown closes a live route.**  Every live route stays open through every run whose
calls are not cut off between closing the routes of an account and replacing them; and what a
sync unsubscribes is not live once the new routes are committed. -/
theorem live_routes_stay_open {calls : List LifecycleCall}
    (hrun : Runs.Guarded (Adapter.call parse relayKey) (fun adapter call =>
      call.FinishesTeardown adapter) .fresh calls) :
    let state := (Adapter.after parse relayKey calls).state
    (∀ id, state.Live id → id ∈ (Adapter.after parse relayKey calls).opened) ∧
    (∀ subscription ∈ state.pendingUnsubscribes, ¬ state.Live subscription.subscriptionId ∨
      subscription ∉ state.pruneLivePendingUnsubscribes.pendingUnsubscribes) ∧
    ∀ accountId routes groups since, state.accounts.get? accountId = some routes →
      let committed := state.commitGroups parse accountId groups
        (diffGroupSubscriptions accountId routes.groups groups since routes.attempt)
      ∀ subscription ∈ committed.pruneLivePendingUnsubscribes.pendingUnsubscribes,
        ¬ committed.Live subscription.subscriptionId := by
  have hserved : Served (Adapter.after parse relayKey calls) :=
    Runs.Guarded.invariant (fun _ _ h hfinishes => h.call hfinishes) served_fresh hrun
  refine ⟨hserved.live, fun subscription hmem => ?_, ?_⟩
  · by_cases hpruned : subscription ∈ (Adapter.after parse relayKey
        calls).state.pruneLivePendingUnsubscribes.pendingUnsubscribes
    · exact .inl (not_live_of_mem_prune hpruned (hserved.queued subscription hmem))
    · exact .inr hpruned
  · intro accountId routes groups since hroutes
    dsimp only
    rw [commitGroups_eq hroutes]
    exact fun subscription hmem => hserved.not_live_of_committed rfl hmem

/-- **Nothing is left half-done.**  If no call is cut off in its teardown, and no sync or
installation that does not go through has opened anything unnoticed, then the routes of the
active accounts are open, and everything else that is open for them is queued for its
teardown. -/
theorem open_routes_are_accounted_for {calls : List LifecycleCall}
    (hrun : Runs.Guarded (Adapter.call parse relayKey) (fun adapter call =>
      call.Possible adapter ∧ call.FinishesTeardown adapter ∧ call.OpensNothing adapter)
      .fresh calls) :
    let adapter := Adapter.after parse relayKey calls
    (∀ id, adapter.state.Live id → id ∈ adapter.opened) ∧
      ∀ id ∈ adapter.opened, (adapter.state.accounts.get? id.route.accountId).isSome = true →
        adapter.state.Live id ∨
          ∃ subscription ∈ adapter.state.pendingUnsubscribes, subscription.subscriptionId = id := by
  have hboth : Served (Adapter.after parse relayKey calls) ∧
      Tidy (Adapter.after parse relayKey calls) :=
    Runs.Guarded.invariant (I := fun adapter => Served adapter ∧ Tidy adapter)
      (fun _ _ h ⟨hpossible, hfinishes, hopens⟩ =>
        ⟨h.1.call hfinishes, h.2.call h.1 hpossible hopens⟩)
      ⟨served_fresh, tidy_fresh⟩ hrun
  exact ⟨hboth.1.live, hboth.2.opened⟩

namespace Sample

def account : MemberId := [1]

def firstGroup : TransportGroupSubscription := ⟨[1], [1], ["wss://relay"]⟩

def secondGroup : TransportGroupSubscription := ⟨[2], [2], ["wss://relay"]⟩

def activated : LifecycleCall :=
  .activate ⟨account, ["wss://relay"], [firstGroup], none⟩ .ok .ok .ok

/-- The second group replaces the first, which the relay does not drop. -/
def left : List LifecycleCall :=
  [activated, .sync account [secondGroup] none .ok (some fun _ => .failed)]

def returned : List LifecycleCall :=
  left ++ [.sync account [firstGroup] none .ok (some fun _ => .ok)]

def firstId : SubscriptionId := ⟨groupRouteKey account firstGroup, 1⟩

def secondId : SubscriptionId := ⟨groupRouteKey account secondGroup, 1⟩

theorem returned_group_is_open :
    (Adapter.after some id returned).state.Live firstId ∧
      firstId ∈ (Adapter.after some id returned).opened := by
  have hlive : (Adapter.after some id returned).state.Live firstId :=
    .inl ⟨⟨account, ["wss://relay"], [firstGroup], 1⟩, rfl,
      .group account firstGroup none 1, .tail _ (.head _), rfl⟩
  have hrun : Runs.Guarded (Adapter.call some id) (fun adapter call =>
      call.FinishesTeardown adapter) .fresh returned := ⟨trivial, trivial, trivial, trivial⟩
  exact ⟨hlive, (live_routes_stay_open hrun).1 _ hlive⟩

theorem left_group_is_queued :
    firstId ∈ (Adapter.after some id left).opened ∧
      ((Adapter.after some id left).state.Live firstId ∨ ∃ subscription ∈
        (Adapter.after some id left).state.pendingUnsubscribes,
          subscription.subscriptionId = firstId) := by
  have hopened : firstId ∈ (Adapter.after some id left).opened := by decide
  have hrun : Runs.Guarded (Adapter.call some id) (fun adapter call =>
      call.Possible adapter ∧ call.FinishesTeardown adapter ∧ call.OpensNothing adapter)
      .fresh left :=
    ⟨⟨trivial, trivial, trivial⟩, ⟨trivial, trivial, trivial⟩, trivial⟩
  exact ⟨hopened, (open_routes_are_accounted_for hrun).2 _ hopened rfl⟩

/-- Of two new groups one is opened before the other is refused. -/
def halfSynced : List LifecycleCall :=
  [activated, .sync account [firstGroup, secondGroup, ⟨[3], [3], ["wss://relay"]⟩] none
    (.failed [.group account secondGroup none 1]) none]

theorem halfSynced_leaves_open :
    Runs.Guarded (Adapter.call some id) (fun adapter call => call.Possible adapter) .fresh
        halfSynced ∧
      secondId ∈ (Adapter.after some id halfSynced).opened ∧
      ((Adapter.after some id halfSynced).state.accounts.get? account).isSome = true ∧
      ¬ (Adapter.after some id halfSynced).state.Live secondId ∧
      (Adapter.after some id halfSynced).state.pendingUnsubscribes = [] := by
  refine ⟨⟨trivial, ?_, trivial⟩, by decide, rfl, ?_, rfl⟩
  · intro subscription hmem
    rw [mem_singleton.mp hmem]
    decide
  · rintro (⟨routes, hroutes, hid⟩ | hsome)
    · cases hroutes
      revert hid
      decide
    · cases hsome

end Sample

end NostrAdapter

end Mdk
