/-
The routes of the Nostr transport adapter, `crates/transport-nostr-adapter/src/lib.rs`.

An account that is active has an inbox route and group routes.  Each is a subscription at the
relays, and the id of a subscription is a hash of its route and of the activation that issued
it; ids are modelled by what is hashed, so that they do not collide.  Telemetry and counters
are left out.

* `AdapterState` and the operations on it, under the names of the source;
* `diffGroupSubscriptions` — what a group sync adds and removes;
* `AccountReplayCoverage` — which relays have said that their stored events are sent, and
  `replay_complete_iff` — when all of them have.
-/
import Mdk.EngineStorage

namespace Mdk

namespace NostrAdapter

/-! ### Subscriptions -/

structure TransportGroupSubscription where
  groupId : GroupId
  transportGroupId : List UInt8
  endpoints : List String
deriving DecidableEq, Repr

inductive NostrSubscription where
  | accountInbox (accountId : MemberId) (endpoints : List String) (since : Option ℕ) (attempt : ℕ)
  | group (accountId : MemberId) (group : TransportGroupSubscription) (since : Option ℕ)
      (attempt : ℕ)
  | groupMaintenance (accountId : MemberId) (group : TransportGroupSubscription)
deriving DecidableEq, Repr

/-- The endpoints are normalized: their order and repetitions are lost. -/
inductive NostrSubscriptionRouteKey where
  | accountInbox (accountId : MemberId) (endpoints : Finset String)
  | group (accountId : MemberId) (groupId : GroupId) (transportGroupId : List UInt8)
      (endpoints : Finset String)
  | groupMaintenance (accountId : MemberId) (groupId : GroupId) (transportGroupId : List UInt8)
      (endpoints : Finset String)
deriving DecidableEq

def NostrSubscriptionRouteKey.accountId : NostrSubscriptionRouteKey → MemberId
  | accountInbox accountId _ | group accountId _ _ _ | groupMaintenance accountId _ _ _ => accountId

/-- What the id of a subscription is a hash of. -/
structure SubscriptionId where
  route : NostrSubscriptionRouteKey
  attempt : ℕ
deriving DecidableEq

def groupRouteKey (accountId : MemberId) (group : TransportGroupSubscription) :
    NostrSubscriptionRouteKey :=
  .group accountId group.groupId group.transportGroupId group.endpoints.toFinset

namespace NostrSubscription

def accountId : NostrSubscription → MemberId
  | accountInbox accountId _ _ _ | group accountId _ _ _ | groupMaintenance accountId _ => accountId

def endpoints : NostrSubscription → List String
  | accountInbox _ endpoints _ _ => endpoints
  | group _ route _ _ | groupMaintenance _ route => route.endpoints

/-- No activation owns a maintenance subscription. -/
def attempt : NostrSubscription → ℕ
  | accountInbox _ _ _ attempt | group _ _ _ attempt => attempt
  | groupMaintenance _ _ => 0

def routeKey : NostrSubscription → NostrSubscriptionRouteKey
  | accountInbox accountId endpoints _ _ => .accountInbox accountId endpoints.toFinset
  | group accountId route _ _ => groupRouteKey accountId route
  | groupMaintenance accountId route =>
    .groupMaintenance accountId route.groupId route.transportGroupId route.endpoints.toFinset

variable (subscription : NostrSubscription)

def subscriptionId : SubscriptionId :=
  ⟨subscription.routeKey, subscription.attempt⟩

/-- The account and the route of a subscription to group events. -/
def groupRoute? : NostrSubscription → Option (MemberId × TransportGroupSubscription)
  | accountInbox _ _ _ _ => none
  | group accountId route _ _ | groupMaintenance accountId route => some (accountId, route)

@[simp] theorem accountId_routeKey : subscription.routeKey.accountId = subscription.accountId := by
  cases subscription <;> rfl

end NostrSubscription

def nip59TimestampTweakSecs : ℕ := 172800

def inboxSince (since : Option ℕ) : Option ℕ := since.map (· - nip59TimestampTweakSecs)

/-- The routes of a group after its first one are addresses it had before. -/
def priorGroupRouteKeys (accountId : MemberId) :
    List GroupId → List TransportGroupSubscription → List NostrSubscriptionRouteKey
  | _, [] => []
  | seen, group :: groups =>
    if group.groupId ∈ seen then
      groupRouteKey accountId group :: priorGroupRouteKeys accountId seen groups
    else priorGroupRouteKeys accountId (group.groupId :: seen) groups

/-- The subscriptions of group routes: an address from before is read from its beginning. -/
def groupSubscriptions (accountId : MemberId) (groups : List TransportGroupSubscription)
    (since : Option ℕ) (attempt : ℕ) : List NostrSubscription :=
  groups.map fun group =>
    .group accountId group
      (if groupRouteKey accountId group ∈ priorGroupRouteKeys accountId [] groups then none
        else since) attempt

def diffGroupSubscriptions (accountId : MemberId)
    (current desired : List TransportGroupSubscription) (since : Option ℕ) (attempt : ℕ) :
    List NostrSubscription × List NostrSubscription :=
  let currentKeys := current.map (groupRouteKey accountId)
  let desiredKeys := desired.map (groupRouteKey accountId)
  ((groupSubscriptions accountId desired since attempt).filter fun subscription =>
      subscription.routeKey ∉ currentKeys ||
        (subscription.routeKey ∈ priorGroupRouteKeys accountId [] desired &&
          subscription.routeKey ∉ priorGroupRouteKeys accountId [] current),
    (current.map fun group => NostrSubscription.group accountId group none attempt).filter
      fun subscription => subscription.routeKey ∉ desiredKeys)

/-! ### Endpoints and entries -/

/-- A relay URL stands for its canonical text. -/
structure CanonicalEndpoint where
  verbatim : String
  parsed : Option String
deriving DecidableEq, Repr

def CanonicalEndpoint.matches (stored : CanonicalEndpoint) (endpoint : String)
    (parsedEndpoint : Option String) : Bool :=
  stored.verbatim == endpoint ||
    match stored.parsed, parsedEndpoint with
    | some stored, some inbound => stored == inbound
    | _, _ => false

structure GroupRouteEntry where
  accountId : MemberId
  groupId : GroupId
  endpoints : List CanonicalEndpoint
deriving DecidableEq, Repr

/-- The entries of each transport group. -/
abbrev GroupIndex := List UInt8 → List GroupRouteEntry

/-! ### Replay coverage -/

structure ReplayRow where
  subscriptionId : SubscriptionId
  relays : List (String × Bool)
deriving DecidableEq

structure AccountReplayCoverage where
  subscriptions : KeyedTable ReplayRow.subscriptionId
deriving DecidableEq

structure AccountSubscriptionEose where
  subscriptions : ℕ
  withEose : ℕ
  relaySubscriptionAttempts : ℕ
  relaySubscriptionAttemptsWithEose : ℕ
deriving DecidableEq, Repr

def AccountSubscriptionEose.complete (eose : AccountSubscriptionEose) : Bool :=
  0 < eose.subscriptions && eose.withEose == eose.subscriptions &&
    0 < eose.relaySubscriptionAttempts &&
      eose.relaySubscriptionAttemptsWithEose == eose.relaySubscriptionAttempts

namespace AccountReplayCoverage

variable (coverage : AccountReplayCoverage)

def snapshot : AccountSubscriptionEose where
  subscriptions := coverage.subscriptions.rows.length
  withEose := coverage.subscriptions.rows.countP fun row => row.relays.any Prod.snd
  relaySubscriptionAttempts := (coverage.subscriptions.rows.map (·.relays.length)).sum
  relaySubscriptionAttemptsWithEose :=
    (coverage.subscriptions.rows.map (·.relays.countP Prod.snd)).sum

def recordEose (subscriptionId : SubscriptionId) (relay : String) : AccountReplayCoverage :=
  match coverage.subscriptions.get? subscriptionId with
  | none => coverage
  | some row =>
    ⟨coverage.subscriptions.upsert { row with
      relays := row.relays.map fun entry => (entry.1, entry.2 || entry.1 == relay) }⟩

/-- `relayKey` is what the relay of an endpoint is numbered under. -/
def start (relayKey : String → String) (subscriptions : List NostrSubscription) :
    AccountReplayCoverage :=
  ⟨subscriptions.foldl (fun table subscription => table.upsert
    ⟨subscription.subscriptionId, (subscription.endpoints.map relayKey).dedup.map (·, false)⟩)
    KeyedTable.empty⟩

open List KeyedTable

/-- A report marks its relay in the row of its subscription. -/
theorem rows_recordEose (id : SubscriptionId) (relay : String) :
    (coverage.recordEose id relay).subscriptions.rows = coverage.subscriptions.rows.map fun row =>
      { row with relays := row.relays.map fun entry =>
        (entry.1, entry.2 || (row.subscriptionId = id && entry.1 == relay)) } := by
  unfold recordEose
  split
  · rename_i hget
    rw [get?_eq_none_iff, mem_map, not_exists] at hget
    refine (map_id' _).symm.trans (map_congr_left fun row hin => ?_)
    have hne : row.subscriptionId ≠ id := fun heq => hget row ⟨hin, heq⟩
    simp [hne]
  · rename_i row hget
    obtain ⟨hmem, rfl⟩ := get?_eq_some_iff.mp hget
    rw [upsert, dif_pos (mem_map_of_mem hmem)]
    refine map_congr_left fun row' hin => ?_
    split
    · rename_i hkey
      rw [inj_on_of_nodup_map coverage.subscriptions.nodup hin hmem hkey]
      simp
    · rename_i hne
      simp [hne]

theorem complete_snapshot : coverage.snapshot.complete = true ↔
    coverage.subscriptions.rows ≠ [] ∧ ∀ row ∈ coverage.subscriptions.rows, row.relays ≠ [] ∧
      ∀ entry ∈ row.relays, entry.2 = true := by
  have hall : coverage.snapshot.relaySubscriptionAttemptsWithEose =
      coverage.snapshot.relaySubscriptionAttempts ↔
      ∀ row ∈ coverage.subscriptions.rows, ∀ entry ∈ row.relays, entry.2 = true := by
    rw [← forall_mem_flatMap, ← countP_eq_length, countP_flatMap, length_flatMap]
    rfl
  simp only [AccountSubscriptionEose.complete, Bool.and_eq_true, decide_eq_true_eq, beq_iff_eq,
    hall]
  simp only [snapshot, countP_eq_length, ← length_flatMap, length_pos_iff, any_eq_true,
    ne_eq, flatMap_eq_nil_iff]
  constructor
  · rintro ⟨⟨⟨hrows, hany⟩, -⟩, hall⟩
    refine ⟨hrows, fun row hrow => ⟨?_, hall row hrow⟩⟩
    obtain ⟨entry, hentry, -⟩ := hany row hrow
    exact ne_nil_of_mem hentry
  · rintro ⟨hrows, hmarked⟩
    obtain ⟨row, hrow⟩ := exists_mem_of_ne_nil _ hrows
    refine ⟨⟨⟨hrows, fun row hrow => ?_⟩, fun hnil => (hmarked row hrow).1 (hnil row hrow)⟩,
      fun row hrow => (hmarked row hrow).2⟩
    obtain ⟨entry, hentry⟩ := exists_mem_of_ne_nil _ (hmarked row hrow).1
    exact ⟨entry, hentry, (hmarked row hrow).2 entry hentry⟩

/-- **A replay is complete when every relay of every subscription has reported**, in whatever
order, and whatever else is reported. -/
theorem replay_complete_iff (reports : List (SubscriptionId × String)) :
    (reports.foldl (fun coverage report => coverage.recordEose report.1 report.2)
      coverage).snapshot.complete = true ↔
      coverage.subscriptions.rows ≠ [] ∧ ∀ row ∈ coverage.subscriptions.rows, row.relays ≠ [] ∧
        ∀ entry ∈ row.relays, entry.2 = true ∨ (row.subscriptionId, entry.1) ∈ reports := by
  induction reports generalizing coverage with
  | nil => simp [complete_snapshot]
  | cons report reports ih =>
    rw [foldl_cons, ih, rows_recordEose]
    simp only [ne_eq, map_eq_nil_iff, forall_mem_map, Bool.or_eq_true, Bool.and_eq_true,
      decide_eq_true_eq, beq_iff_eq, mem_cons, Prod.ext_iff, or_assoc]

end AccountReplayCoverage

/-! ### The state -/

structure AccountRoutes where
  accountId : MemberId
  inboxEndpoints : List String
  groups : List TransportGroupSubscription
  attempt : ℕ
deriving DecidableEq, Repr

structure AdapterState where
  accounts : KeyedTable AccountRoutes.accountId
  accountReplayCoverage : MemberId → Option AccountReplayCoverage
  activationAttemptHighWater : MemberId → ℕ
  byTransportGroup : GroupIndex
  maintenanceRoutes : KeyedTable NostrSubscription.subscriptionId
  pendingUnsubscribes : List NostrSubscription

structure TransportAccountActivation where
  accountId : MemberId
  inboxEndpoints : List String
  groupSubscriptions : List TransportGroupSubscription
  since : Option ℕ
deriving DecidableEq, Repr

/-- The subscriptions of an activation: its inbox and its groups. -/
def TransportAccountActivation.issued (activation : TransportAccountActivation) (attempt : ℕ) :
    List NostrSubscription :=
  .accountInbox activation.accountId activation.inboxEndpoints (inboxSince activation.since)
      attempt ::
    NostrAdapter.groupSubscriptions activation.accountId activation.groupSubscriptions
      activation.since attempt

/-- `account_subscription_ids`, of one account. -/
def AccountRoutes.subscriptions (routes : AccountRoutes) : List NostrSubscription :=
  .accountInbox routes.accountId routes.inboxEndpoints none routes.attempt ::
    routes.groups.map fun group => .group routes.accountId group none routes.attempt

def AdapterState.empty : AdapterState where
  accounts := .empty
  accountReplayCoverage _ := none
  activationAttemptHighWater _ := 0
  byTransportGroup _ := []
  maintenanceRoutes := .empty
  pendingUnsubscribes := []

namespace AdapterState

variable (state : AdapterState)

section Index

variable (parse : String → Option String)

/-- The routes of the accounts, under one transport group. -/
def accountEntries (accounts : List AccountRoutes) : GroupIndex := fun transportGroupId =>
  accounts.flatMap fun routes =>
    (routes.groups.filter (·.transportGroupId = transportGroupId)).map fun group =>
      ⟨routes.accountId, group.groupId, group.endpoints.map fun e => ⟨e, parse e⟩⟩

/-- Add what the entries do not cover yet. -/
def stageGroupRoute (index : GroupIndex) (subscription : NostrSubscription) : GroupIndex :=
  match subscription.groupRoute? with
  | none => index
  | some (accountId, group) =>
    let entries := index group.transportGroupId
    let staged := group.endpoints.filter fun endpoint =>
      !entries.any fun entry => entry.accountId = accountId && entry.groupId = group.groupId &&
        entry.endpoints.any (·.matches endpoint (parse endpoint))
    if staged.isEmpty then index
    else Function.update index group.transportGroupId
      (entries ++ [⟨accountId, group.groupId, staged.map fun e => ⟨e, parse e⟩⟩])

def stageGroupRoutes (subscriptions : List NostrSubscription) : AdapterState :=
  { state with
    byTransportGroup := subscriptions.foldl (stageGroupRoute parse) state.byTransportGroup }

def rebuildTransportGroupIndex : AdapterState :=
  stageGroupRoutes { state with byTransportGroup := accountEntries parse state.accounts.rows }
    parse state.maintenanceRoutes.rows

variable (accountId : MemberId)

def forgetMaintenanceRoutes : AdapterState :=
  { state with
    maintenanceRoutes := state.maintenanceRoutes.filterMapRows
      (Option.guard (·.accountId ≠ accountId)) fun _ _ h => by
        rw [(Option.guard_eq_some_iff.mp h).1] }

def activate (activation : TransportAccountActivation) (attempt : ℕ) : AdapterState :=
  let raised := { state with
    activationAttemptHighWater :=
      Function.update state.activationAttemptHighWater activation.accountId attempt }
  let forgotten := raised.forgetMaintenanceRoutes activation.accountId
  rebuildTransportGroupIndex { forgotten with
    accounts := forgotten.accounts.upsert ⟨activation.accountId, activation.inboxEndpoints,
      activation.groupSubscriptions, attempt⟩ } parse

def syncGroups (groups : List TransportGroupSubscription) : AdapterState :=
  match state.accounts.get? accountId with
  | none => state
  | some routes => rebuildTransportGroupIndex { state with
      accounts := state.accounts.upsert { routes with groups := groups } } parse

def deactivate : AdapterState :=
  let removed := { state with accounts := state.accounts.erase accountId }
  rebuildTransportGroupIndex { removed.forgetMaintenanceRoutes accountId with
    accountReplayCoverage := Function.update state.accountReplayCoverage accountId none } parse

end Index

variable (accountId : MemberId)

/-- Attempts saturate at the largest `u64`. -/
def nextActivationAttempt : ℕ :=
  min (state.activationAttemptHighWater accountId + 1) (2 ^ 64 - 1)

def queuePendingUnsubscribe (pending : List NostrSubscription) (subscription : NostrSubscription) :
    List NostrSubscription :=
  if pending.any (·.subscriptionId = subscription.subscriptionId) then pending
  else pending ++ [subscription]

def queuePendingUnsubscribes (subscriptions : List NostrSubscription) : AdapterState :=
  { state with
    pendingUnsubscribes := subscriptions.foldl queuePendingUnsubscribe state.pendingUnsubscribes }

def liveGroupRouteKeys : List NostrSubscriptionRouteKey :=
  state.accounts.rows.flatMap fun routes => routes.groups.map (groupRouteKey routes.accountId)

/-- A queued teardown whose route is live again is dropped. -/
def pruneLivePendingUnsubscribes : AdapterState :=
  { state with
    pendingUnsubscribes := state.pendingUnsubscribes.filter fun subscription =>
      subscription.routeKey ∉ state.liveGroupRouteKeys &&
        (state.maintenanceRoutes.get? subscription.subscriptionId).isNone }

def removePendingUnsubscribeById (subscriptionId : SubscriptionId) : AdapterState :=
  { state with
    pendingUnsubscribes := state.pendingUnsubscribes.eraseP (·.subscriptionId = subscriptionId) }

def clearPendingUnsubscribesForAccount : AdapterState :=
  { state with
    pendingUnsubscribes := state.pendingUnsubscribes.filter (·.accountId ≠ accountId) }

def recordAccountReplayStart (relayKey : String → String) (accountId : MemberId)
    (subscriptions : List NostrSubscription) : AdapterState :=
  { state with
    accountReplayCoverage := Function.update state.accountReplayCoverage accountId
      (some (.start relayKey subscriptions)) }

variable (parse : String → Option String)

/-- The block of an activation that registers its routes. -/
def register (relayKey : String → String) (activation : TransportAccountActivation) :
    AdapterState :=
  let attempt := state.nextActivationAttempt activation.accountId
  (((state.clearPendingUnsubscribesForAccount activation.accountId).recordAccountReplayStart
    relayKey activation.accountId (activation.issued attempt)).activate parse activation attempt)

end AdapterState

end NostrAdapter

end Mdk
