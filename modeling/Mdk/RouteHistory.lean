/-
The Nostr routes of a group that are still listened to, `crates/marmot-app/src/groups.rs`.

The record of a group holds its current route, the last epoch this was observed at, and the routes
it had before, each with the last epoch of its own.  Routes are compared by the group id and the
normalized relays.

* `AppGroupRecord` and the operations on its routes, under the names of the source;
* `Observed` — a record with the routes whose messages can still matter;
* `routes_kept_through_last_epoch` — those are held, if a route is not returned to at an epoch
  before its last one, nor while the history with its entry is too long.
-/
import Mdk.Canonicalization
import Mdk.Runs

namespace Mdk

open List

namespace RouteHistory

def maxPriorNostrRoutes : ℕ := 32

/-- The relays, sorted and without repetitions. -/
def normalizedRelays (relays : List String) : List String := (relays.insertionSort (· ≤ ·)).dedup

/-- What routes are compared by. -/
abbrev RouteKey := String × List String

structure AppGroupNostrRoutingComponent where
  nostrGroupIdHex : String
  relays : List String
deriving DecidableEq, Repr

structure AppPriorNostrRoute where
  nostrGroupIdHex : String
  relays : List String
  lastEpoch : ℕ
deriving DecidableEq, Repr

def AppGroupNostrRoutingComponent.key (route : AppGroupNostrRoutingComponent) : RouteKey :=
  (route.nostrGroupIdHex, normalizedRelays route.relays)

def AppPriorNostrRoute.key (route : AppPriorNostrRoute) : RouteKey :=
  (route.nostrGroupIdHex, normalizedRelays route.relays)

/-- By epoch, then by group id, then by relays. -/
def AppPriorNostrRoute.le (left right : AppPriorNostrRoute) : Prop :=
  left.lastEpoch < right.lastEpoch ∨ left.lastEpoch = right.lastEpoch ∧
    (left.nostrGroupIdHex < right.nostrGroupIdHex ∨
      left.nostrGroupIdHex = right.nostrGroupIdHex ∧ left.relays ≤ right.relays)

instance : DecidableRel AppPriorNostrRoute.le := fun _ _ => instDecidableOr

structure AppGroupRecord where
  endpoint : String
  nostrRouting : AppGroupNostrRoutingComponent
  nostrRoutingLastEpoch : ℕ
  priorNostrRoutes : List AppPriorNostrRoute
deriving DecidableEq, Repr

/-- An entry for the same route keeps the later epoch. -/
def mergePriorNostrRoute (route : AppPriorNostrRoute) : List AppPriorNostrRoute →
    List AppPriorNostrRoute
  | [] => [{ route with relays := normalizedRelays route.relays }]
  | existing :: rest =>
    if existing.key = route.key then
      { existing with lastEpoch := max existing.lastEpoch route.lastEpoch } :: rest
    else existing :: mergePriorNostrRoute route rest

namespace AppGroupRecord

variable (record : AppGroupRecord) (routes : List AppPriorNostrRoute)

def mergedPriorNostrRoutes : List AppPriorNostrRoute :=
  (routes.foldl (fun prior route => mergePriorNostrRoute route prior)
    record.priorNostrRoutes).insertionSort AppPriorNostrRoute.le

/-- The oldest entries are dropped where there are too many. -/
def mergePriorNostrRoutes : AppGroupRecord :=
  let sorted := record.mergedPriorNostrRoutes routes
  { record with priorNostrRoutes := sorted.drop (sorted.length - maxPriorNostrRoutes) }

def priorOf (lastEpoch : ℕ) : AppPriorNostrRoute :=
  ⟨record.nostrRouting.nostrGroupIdHex, normalizedRelays record.nostrRouting.relays, lastEpoch⟩

def rememberPriorNostrRoute (lastEpoch : ℕ) : AppGroupRecord :=
  record.mergePriorNostrRoutes [record.priorOf lastEpoch]

/-- `epoch` is that of the group metadata, if there is any. -/
def refreshFromGroup (routing : AppGroupNostrRoutingComponent) (epoch : Option ℕ) :
    AppGroupRecord :=
  let routeChanged := record.nostrRouting.key ≠ routing.key
  let remembered := if routeChanged then
    record.rememberPriorNostrRoute (max ((epoch.map (· - 1)).getD 0) record.nostrRoutingLastEpoch)
    else record
  { endpoint := routing.relays.head?.getD ""
    nostrRouting := routing
    nostrRoutingLastEpoch := if routeChanged then epoch.getD 0
      else max record.nostrRoutingLastEpoch (epoch.getD 0)
    priorNostrRoutes := remembered.priorNostrRoutes.filter (·.key ≠ routing.key) }

def adoptable : List AppPriorNostrRoute :=
  routes.filter (·.key ≠ record.nostrRouting.key)

def adoptPriorNostrRoutes : AppGroupRecord :=
  record.mergePriorNostrRoutes (record.adoptable routes)

def retainedDepth : ℕ :=
  let policy : CanonicalizationPolicy := {}
  (max policy.convergence.maxRewindCommits policy.appMessagePastEpochLimit).toNat

/-- The record, and whether a route was retired. -/
def prunePriorNostrRoutes (currentEpoch : ℕ) : AppGroupRecord × Bool :=
  let kept := record.priorNostrRoutes.filter (currentEpoch - retainedDepth ≤ ·.lastEpoch)
  ({ record with priorNostrRoutes := kept }, kept.length ≠ record.priorNostrRoutes.length)

/-- The routes that are subscribed to. -/
def keys : List RouteKey := record.nostrRouting.key :: record.priorNostrRoutes.map (·.key)

end AppGroupRecord

inductive RouteCall where
  | refresh (routing : AppGroupNostrRoutingComponent) (epoch : ℕ)
  | adopt (routes : List AppPriorNostrRoute)
  | prune (epoch : ℕ)
deriving DecidableEq, Repr

def AppGroupRecord.call (record : AppGroupRecord) : RouteCall → AppGroupRecord
  | .refresh routing epoch => record.refreshFromGroup routing (some epoch)
  | .adopt routes => record.adoptPriorNostrRoutes routes
  | .prune epoch => (record.prunePriorNostrRoutes epoch).1

/-- The history of a refresh with another route, before its oldest entries are dropped and
before the entry of that route is. -/
def AppGroupRecord.remembering (record : AppGroupRecord) (epoch : ℕ) : List AppPriorNostrRoute :=
  record.mergedPriorNostrRoutes
    [record.priorOf (max (epoch - 1) record.nostrRoutingLastEpoch)]

/-- There are no more prior routes than may be held: the current one is not prior. -/
def RouteCall.Fits (record : AppGroupRecord) : RouteCall → Prop
  | refresh routing epoch => record.nostrRouting.key ≠ routing.key →
    ((record.remembering epoch).filter (·.key ≠ routing.key)).length ≤ maxPriorNostrRoutes
  | adopt routes =>
    (record.mergedPriorNostrRoutes (record.adoptable routes)).length ≤ maxPriorNostrRoutes
  | prune _ => True

/-- A prior route is returned to at its last epoch or later. -/
def RouteCall.ReturnsLater (record : AppGroupRecord) : RouteCall → Prop
  | refresh routing epoch =>
    ∀ route ∈ record.priorNostrRoutes, route.key = routing.key → route.lastEpoch ≤ epoch
  | adopt _ | prune _ => True

/-- Where a prior route is returned to, no other entry is dropped for the place that its own
entry still takes. -/
def RouteCall.SparesOthers (record : AppGroupRecord) : RouteCall → Prop
  | refresh routing epoch => record.nostrRouting.key ≠ routing.key →
    (∃ route ∈ record.remembering epoch, route.key = routing.key) →
      ∀ route ∈ (record.remembering epoch).take
        ((record.remembering epoch).length - maxPriorNostrRoutes), route.key = routing.key
  | adopt _ | prune _ => True

instance (record : AppGroupRecord) : DecidablePred (RouteCall.Fits record) := by
  intro call
  cases call <;> dsimp only [RouteCall.Fits] <;> infer_instance

instance (record : AppGroupRecord) : DecidablePred (RouteCall.ReturnsLater record) := by
  intro call
  cases call <;> dsimp only [RouteCall.ReturnsLater] <;> infer_instance

instance (record : AppGroupRecord) : DecidablePred (RouteCall.SparesOthers record) := by
  intro call
  cases call <;> dsimp only [RouteCall.SparesOthers] <;> infer_instance

/-- A record, with the routes observed and the epochs no prune has retired. -/
structure Observed where
  record : AppGroupRecord
  owed : List (RouteKey × ℕ)
deriving DecidableEq, Repr

def Observed.step (observed : Observed) (call : RouteCall) : Observed where
  record := observed.record.call call
  owed := match call with
    | .refresh routing epoch => (routing.key, epoch) :: observed.owed
    | .adopt _ => observed.owed
    | .prune epoch => observed.owed.filter (epoch - AppGroupRecord.retainedDepth ≤ ·.2)

/-! ### Entries -/

/-- An entry holds a route through an epoch. -/
def Covers (prior : List AppPriorNostrRoute) (key : RouteKey) (epoch : ℕ) : Prop :=
  ∃ route ∈ prior, route.key = key ∧ epoch ≤ route.lastEpoch

section Covers

variable {prior : List AppPriorNostrRoute} {key : RouteKey} {epoch : ℕ}

theorem normalizedRelays_idem (relays : List String) :
    normalizedRelays (normalizedRelays relays) = normalizedRelays relays := by
  have hsorted : (normalizedRelays relays).Pairwise (· ≤ ·) :=
    (pairwise_insertionSort _ _).sublist (dedup_sublist _)
  rw [normalizedRelays, hsorted.insertionSort_eq]
  exact dedup_idem

theorem Covers.cons (h : Covers prior key epoch) (route : AppPriorNostrRoute) :
    Covers (route :: prior) key epoch :=
  let ⟨entry, hentry, hkey⟩ := h
  ⟨entry, mem_cons_of_mem _ hentry, hkey⟩

theorem covers_merge_self (route : AppPriorNostrRoute) :
    Covers (mergePriorNostrRoute route prior) route.key route.lastEpoch := by
  induction prior with
  | nil =>
    refine ⟨_, mem_singleton_self _, ?_, le_rfl⟩
    exact congrArg (Prod.mk _) (normalizedRelays_idem _)
  | cons existing rest ih =>
    rw [mergePriorNostrRoute]
    split
    · rename_i hsame
      exact ⟨_, mem_cons_self, hsame, le_max_right _ _⟩
    · exact ih.cons _

theorem Covers.merge (h : Covers prior key epoch) (route : AppPriorNostrRoute) :
    Covers (mergePriorNostrRoute route prior) key epoch := by
  induction prior with
  | nil =>
    obtain ⟨_, hmem, _⟩ := h
    cases hmem
  | cons existing rest ih =>
    obtain ⟨entry, hentry, hkey, hepoch⟩ := h
    rw [mergePriorNostrRoute]
    obtain rfl | hentry := mem_cons.mp hentry
    · split
      · exact ⟨_, mem_cons_self, hkey, hepoch.trans (le_max_left _ _)⟩
      · exact ⟨entry, mem_cons_self, hkey, hepoch⟩
    · have hrest : Covers rest key epoch := ⟨entry, hentry, hkey, hepoch⟩
      split
      · exact hrest.cons _
      · exact (ih hrest).cons _

theorem Covers.filter (h : Covers prior key epoch) {other : RouteKey} (hne : key ≠ other) :
    Covers (prior.filter (·.key ≠ other)) key epoch := by
  obtain ⟨entry, hentry, rfl, hepoch⟩ := h
  exact ⟨entry, mem_filter.mpr ⟨hentry, by simpa using hne⟩, rfl, hepoch⟩

theorem covers_foldl (routes : List AppPriorNostrRoute) (h : Covers prior key epoch) :
    Covers (routes.foldl (fun prior route => mergePriorNostrRoute route prior) prior)
      key epoch := by
  induction routes generalizing prior with
  | nil => exact h
  | cons route routes ih => exact ih (h.merge route)

variable {record : AppGroupRecord} {routes : List AppPriorNostrRoute}

/-- A route is still held after a merge that drops no entry for it. -/
theorem covers_mergePriorNostrRoutes
    (hspared : ∀ route ∈ (record.mergedPriorNostrRoutes routes).take
      ((record.mergedPriorNostrRoutes routes).length - maxPriorNostrRoutes), route.key ≠ key)
    (h : Covers (routes.foldl (fun prior route => mergePriorNostrRoute route prior)
      record.priorNostrRoutes) key epoch) :
    Covers (record.mergePriorNostrRoutes routes).priorNostrRoutes key epoch := by
  obtain ⟨entry, hentry, hkey⟩ := h
  refine ⟨entry, ?_, hkey⟩
  have hmem : entry ∈ record.mergedPriorNostrRoutes routes := (mem_insertionSort _).mpr hentry
  rw [← take_append_drop ((record.mergedPriorNostrRoutes routes).length - maxPriorNostrRoutes)
    (record.mergedPriorNostrRoutes routes)] at hmem
  exact (mem_append.mp hmem).resolve_left fun htaken => hspared entry htaken hkey.1

end Covers

/-! ### Runs -/

/-- The route is the current one, or an entry holds it, through the epoch. -/
def Held (record : AppGroupRecord) (key : RouteKey) (epoch : ℕ) : Prop :=
  record.nostrRouting.key = key ∧ epoch ≤ record.nostrRoutingLastEpoch ∨
    Covers record.priorNostrRoutes key epoch

section Held

variable {record : AppGroupRecord} {key : RouteKey} {epoch : ℕ}

/-- What a refresh with another route remembers. -/
theorem Held.remembered (h : Held record key epoch) {lastEpoch : ℕ}
    (hlast : record.nostrRoutingLastEpoch ≤ lastEpoch)
    (hspared : ∀ route ∈ (record.mergedPriorNostrRoutes [record.priorOf lastEpoch]).take
      ((record.mergedPriorNostrRoutes [record.priorOf lastEpoch]).length - maxPriorNostrRoutes),
      route.key ≠ key) :
    Covers (record.rememberPriorNostrRoute lastEpoch).priorNostrRoutes key epoch := by
  refine covers_mergePriorNostrRoutes hspared ?_
  obtain ⟨rfl, hepoch⟩ | hcovers := h
  · obtain ⟨entry, hentry, hkey, hlater⟩ := covers_merge_self (record.priorOf lastEpoch)
    refine ⟨entry, hentry, hkey.trans ?_, hepoch.trans (hlast.trans hlater)⟩
    exact congrArg (Prod.mk _) (normalizedRelays_idem _)
  · exact hcovers.merge _

/-- A refresh drops only entries of the route it returns to. -/
theorem spared_of_fits {routing : AppGroupNostrRoutingComponent} {observedAt : ℕ}
    (hchanged : record.nostrRouting.key ≠ routing.key)
    (hfits : (RouteCall.refresh routing observedAt).Fits record)
    (hspares : (RouteCall.refresh routing observedAt).SparesOthers record) :
    ∀ route ∈ (record.remembering observedAt).take
      ((record.remembering observedAt).length - maxPriorNostrRoutes),
      route.key = routing.key := by
  by_cases hreturned : ∃ route ∈ record.remembering observedAt, route.key = routing.key
  · exact hspares hchanged hreturned
  · have hall : (record.remembering observedAt).filter (·.key ≠ routing.key) =
        record.remembering observedAt :=
      filter_eq_self.mpr fun route hroute =>
        decide_eq_true fun hkey => hreturned ⟨route, hroute, hkey⟩
    have hle := hfits hchanged
    rw [hall] at hle
    rw [Nat.sub_eq_zero_of_le hle]
    intro route hroute
    cases hroute

theorem Held.refresh (h : Held record key epoch) {routing : AppGroupNostrRoutingComponent}
    {observedAt : ℕ} (hfits : (RouteCall.refresh routing observedAt).Fits record)
    (hlater : (RouteCall.refresh routing observedAt).ReturnsLater record)
    (hspares : (RouteCall.refresh routing observedAt).SparesOthers record) :
    Held (record.refreshFromGroup routing (some observedAt)) key epoch := by
  unfold AppGroupRecord.refreshFromGroup
  by_cases hkey : routing.key = key
  · -- The route is the current one from here on.
    refine .inl ⟨hkey, ?_⟩
    dsimp only
    obtain ⟨hcurrent, hepoch⟩ | ⟨route, hroute, hsame, hepoch⟩ := h
    · rw [if_neg (not_not.mpr (hcurrent.trans hkey.symm))]
      exact hepoch.trans (le_max_left _ _)
    · have hat : epoch ≤ observedAt := hepoch.trans (hlater route hroute (hsame.trans hkey.symm))
      split
      · exact hat
      · exact hat.trans (le_max_right _ _)
  · refine .inr (Covers.filter ?_ (Ne.symm hkey))
    split
    · rename_i hchanged
      refine h.remembered (le_max_right _ _) fun route hroute hsame => hkey ?_
      exact (spared_of_fits hchanged hfits hspares route hroute).symm.trans hsame
    · rename_i hsame
      refine h.resolve_left fun hcurrent => hkey ?_
      exact (not_not.mp hsame).symm.trans hcurrent.1

theorem Held.adopt (h : Held record key epoch) {routes : List AppPriorNostrRoute}
    (hfits : (RouteCall.adopt routes).Fits record) :
    Held (record.adoptPriorNostrRoutes routes) key epoch := by
  refine h.imp_right fun hcovers => covers_mergePriorNostrRoutes ?_ (covers_foldl _ hcovers)
  rw [Nat.sub_eq_zero_of_le hfits]
  intro route hroute
  cases hroute

theorem Held.prune (h : Held record key epoch) {currentEpoch : ℕ}
    (hlive : currentEpoch - AppGroupRecord.retainedDepth ≤ epoch) :
    Held (record.prunePriorNostrRoutes currentEpoch).1 key epoch := by
  refine h.imp_right fun hcovers => ?_
  obtain ⟨entry, hentry, hkey, hepoch⟩ := hcovers
  exact ⟨entry, mem_filter.mpr ⟨hentry, by simpa using hlive.trans hepoch⟩, hkey, hepoch⟩

/-- The route of a refresh is held through its epoch. -/
theorem held_refreshed (record : AppGroupRecord) (routing : AppGroupNostrRoutingComponent)
    (epoch : ℕ) : Held (record.refreshFromGroup routing (some epoch)) routing.key epoch := by
  refine .inl ⟨rfl, ?_⟩
  unfold AppGroupRecord.refreshFromGroup
  dsimp only
  split
  · exact le_rfl
  · exact le_max_right _ _

theorem held_step {observed : Observed} {call : RouteCall}
    (h : ∀ owed ∈ observed.owed, Held observed.record owed.1 owed.2)
    (hcall : call.Fits observed.record ∧ call.ReturnsLater observed.record ∧
      call.SparesOthers observed.record) :
    ∀ owed ∈ (observed.step call).owed, Held (observed.step call).record owed.1 owed.2 := by
  intro owed howed
  cases call with
  | refresh routing epoch =>
    obtain rfl | howed := mem_cons.mp howed
    · exact held_refreshed _ routing epoch
    · exact (h owed howed).refresh hcall.1 hcall.2.1 hcall.2.2
  | adopt routes => exact (h owed howed).adopt hcall.1
  | prune epoch =>
    obtain ⟨howed, hlive⟩ := mem_filter.mp howed
    exact (h owed howed).prune (by simpa using hlive)

/-- **Routes are kept through their last epoch**, if none is returned to before it, nor at the
cost of another. -/
theorem routes_kept_through_last_epoch {calls : List RouteCall}
    (hrun : Runs.Guarded Observed.step
      (fun observed call => call.Fits observed.record ∧ call.ReturnsLater observed.record ∧
        call.SparesOthers observed.record)
      ⟨record, []⟩ calls)
    (howed : (key, epoch) ∈ (calls.foldl Observed.step ⟨record, []⟩).owed) :
    key ∈ (calls.foldl Observed.step ⟨record, []⟩).record.keys := by
  have hheld := Runs.Guarded.invariant (fun _ _ h hcall => held_step h hcall)
    (fun _ hnil => by cases hnil) hrun (key, epoch) howed
  obtain ⟨hcurrent, -⟩ | ⟨route, hroute, hkey, -⟩ := hheld
  · exact mem_cons.mpr (.inl hcurrent.symm)
  · exact mem_cons_of_mem _ (mem_map.mpr ⟨route, hroute, hkey⟩)

end Held

namespace Sample

def route (id : String) : AppGroupNostrRoutingComponent := ⟨id, ["wss://one.example"]⟩

def record : AppGroupRecord := ⟨"", route "0", 0, []⟩

def rolledBack : List RouteCall := [.refresh (route "1") 10, .refresh (route "2") 6]

/-- The group returns to its first route below the epoch it left it at, and leaves it again. -/
def returned : List RouteCall :=
  rolledBack ++ [.refresh (route "1") 3, .refresh (route "2") 4, .prune 15]

theorem losing_route_is_kept :
    (route "1").key ∈ (rolledBack.foldl Observed.step ⟨record, []⟩).record.keys := by
  have hrun : Runs.Guarded Observed.step
      (fun observed call => call.Fits observed.record ∧ call.ReturnsLater observed.record ∧
        call.SparesOthers observed.record)
      ⟨record, []⟩ rolledBack := by
    decide
  have howed : ((route "1").key, 10) ∈ (rolledBack.foldl Observed.step ⟨record, []⟩).owed := by
    decide
  exact routes_kept_through_last_epoch hrun howed

theorem returned_route_is_lost :
    ((route "1").key, 10) ∈ (returned.foldl Observed.step ⟨record, []⟩).owed ∧
      (returned.foldl Observed.step ⟨record, []⟩).record.keys = [(route "2").key] := by
  decide

/-- As many prior routes as may be held, and then a return to one of them. -/
def fullHistory : List RouteCall :=
  (range 33).map (fun n => .refresh (route n.repr) n) ++ [.refresh (route "5") 33]

/-- Its entry still takes a place when the current route is remembered, so the oldest route is
dropped, and only then its entry: 31 prior routes are left. -/
theorem oldest_route_is_lost_on_return :
    Runs.Guarded Observed.step
      (fun observed call => call.Fits observed.record ∧ call.ReturnsLater observed.record)
      ⟨record, []⟩ fullHistory ∧
    ((route "0").key, 0) ∈ (fullHistory.foldl Observed.step ⟨record, []⟩).owed ∧
    (route "0").key ∉ (fullHistory.foldl Observed.step ⟨record, []⟩).record.keys ∧
    (fullHistory.foldl Observed.step ⟨record, []⟩).record.priorNostrRoutes.length = 31 := by
  decide +kernel

end Sample

end RouteHistory

end Mdk
