/-
What the subscribers of the broker see.

`BrokerTrace` runs the operations of the broker beside a record of what was published
into each room, and of what each subscriber got: the backlog snapshot it was given, and
the records that were put into its queue.

* `Gapless` — the invariant: the backlog of a room is an end of what was published into
  it, and a subscriber has a contiguous part of it, up to the end while it is registered;
* **`subscribers_gapless`** — this holds after every sequence of operations with a clock
  that does not go back (`Forwards`), and the snapshot starts inside the replay window.
-/
import Mdk.Broker

namespace Mdk

open BacklogRecord BrokerStateInner List

/-- A record, and when it was published. -/
structure Publication where
  publishedAt : Instant
  record : AgentTextStreamRecordV1
deriving DecidableEq, Repr

/-- A subscriber: where and when it subscribed, the backlog it was given, and what was put
into its queue since. -/
structure Subscription where
  id : ℕ
  key : BrokerStreamKey
  room : ℕ
  subscribedAt : Instant
  snapshot : List AgentTextStreamRecordV1
  queued : List AgentTextStreamRecordV1
deriving DecidableEq, Repr

/-- The broker with its past.  `published key room` is what was published to the key while
its room was the one with the notifier `room`, that is since this room was created or
reset. -/
structure BrokerTrace where
  inner : BrokerStateInner
  published : BrokerStreamKey → ℕ → List Publication
  subscriptions : List Subscription

namespace BrokerTrace

def empty : BrokerTrace := ⟨.empty, fun _ _ => [], []⟩

/-- The room of a key by its notifier. -/
def roomId (inner : BrokerStateInner) (key : BrokerStreamKey) : ℕ :=
  (inner.room? key).elim 0 BrokerRoom.subscriberNotify

/-- The subscriptions after a record was put into the queues of `takers`. -/
def enqueue (subscriptions : List Subscription) (takers : List ℕ)
    (record : AgentTextStreamRecordV1) : List Subscription :=
  subscriptions.map fun sub =>
    if sub.id ∈ takers then { sub with queued := sub.queued ++ [record] } else sub

def publishInto (published : BrokerStreamKey → ℕ → List Publication) (key : BrokerStreamKey)
    (room : ℕ) (publication : Publication) : BrokerStreamKey → ℕ → List Publication :=
  fun key' room' =>
    if key' = key ∧ room' = room then published key' room' ++ [publication]
    else published key' room'

/-- A subscription is made when the purge of its room begins, which its snapshot follows. -/
def step (limits : BrokerLimits) (s : BrokerTrace) (clock : Readings) (op : BrokerOp) :
    BrokerTrace :=
  match op with
  | .subscribe key =>
    match s.inner.subscribe limits clock key with
    | (.ok (id, snapshot), inner) =>
      { s with
        inner := inner
        subscriptions :=
          s.subscriptions ++ [⟨id, key, roomId inner key, clock.backlog 0, snapshot, []⟩] }
    | (.error _, inner) => { s with inner := inner }
  | .publish key record accepts =>
    let inner := (s.inner.publish limits clock key record accepts).2
    match (s.inner.enterPublish limits clock key record).1 with
    | .ok (_, room, _) =>
      { inner := inner
        published := publishInto s.published key room.subscriberNotify ⟨clock.last, record⟩
        subscriptions := enqueue s.subscriptions (room.subscribers.filter accepts) record }
    | .error _ => { s with inner := inner }
  | op => { s with inner := op.apply limits clock s.inner }

def run (limits : BrokerLimits) (ops : List (Readings × BrokerOp)) : BrokerTrace :=
  ops.foldl (fun s op => s.step limits op.1 op.2) .empty

end BrokerTrace

/-- An operation after `since` reads a clock that does not go back: from the purge of the room
to what is appended. -/
structure Readings.Forward (since : Instant) (clock : Readings) : Prop where
  since_le : since ≤ clock.backlog 0
  backlog : Monotone clock.backlog
  le_last : ∀ turn, clock.backlog turn ≤ clock.last

/-- The operations read a clock that does not go back. -/
def Forwards : Instant → List (Readings × BrokerOp) → Prop
  | _, [] => True
  | since, (clock, _) :: ops => clock.Forward since ∧ Forwards clock.last ops

/-! ### Operations that drop -/

theorem room?_setRoom (inner : BrokerStateInner) (key key' : BrokerStreamKey)
    (room : BrokerRoom) :
    (inner.setRoom key room).room? key' = if key = key' then some room else inner.room? key' := by
  rw [room?, setRoom, KeyedTable.get?_upsert]
  split <;> rfl

/-- Every room of `inner'` is one of `inner` with less backlog and fewer subscribers, or a
new empty one. -/
structure Shrinks (inner inner' : BrokerStateInner) : Prop where
  subscriberId : inner'.nextSubscriberId = inner.nextSubscriberId
  notify : inner.nextNotify ≤ inner'.nextNotify
  rooms : ∀ key room', inner'.room? key = some room' →
    (∃ room, inner.room? key = some room ∧ room'.subscriberNotify = room.subscriberNotify ∧
      room'.backlog <:+ room.backlog ∧ ∀ id ∈ room'.subscribers, id ∈ room.subscribers) ∨
    inner.nextNotify ≤ room'.subscriberNotify ∧ room'.subscriberNotify < inner'.nextNotify ∧
      room'.backlog = [] ∧ room'.subscribers = []

namespace Shrinks

variable {limits : BrokerLimits} {inner inner' inner'' : BrokerStateInner}
  {key : BrokerStreamKey} {room room' : BrokerRoom} {clock : Readings}

theorem refl (inner : BrokerStateInner) : Shrinks inner inner :=
  ⟨rfl, le_rfl, fun _ room h =>
    .inl ⟨room, h, rfl, suffix_rfl, fun _ hid => hid⟩⟩

theorem trans (h : Shrinks inner inner') (h' : Shrinks inner' inner'') :
    Shrinks inner inner'' := by
  refine ⟨h'.subscriberId.trans h.subscriberId, h.notify.trans h'.notify, ?_⟩
  intro key room'' hroom''
  rcases h'.rooms key room'' hroom'' with
    ⟨room', hroom', hnotify', hbacklog', hsubs'⟩ | ⟨hle, hlt, hbacklog, hsubs⟩
  · rcases h.rooms key room' hroom' with
      ⟨room, hroom, hnotify, hbacklog, hsubs⟩ | ⟨hle, hlt, hbacklog, hsubs⟩
    · exact .inl ⟨room, hroom, hnotify'.trans hnotify, hbacklog'.trans hbacklog,
        fun id hid => hsubs id (hsubs' id hid)⟩
    · refine .inr ⟨hnotify' ▸ hle, hnotify' ▸ lt_of_lt_of_le hlt h'.notify, ?_, ?_⟩
      · rw [hbacklog] at hbacklog'
        exact suffix_nil.mp hbacklog'
      · refine eq_nil_iff_forall_not_mem.mpr fun id hid => ?_
        have hmem := hsubs' id hid
        rw [hsubs] at hmem
        cases hmem
  · exact .inr ⟨le_trans h.notify hle, hlt, hbacklog, hsubs⟩

/-- The total is not looked at. -/
theorem of_rooms (hrooms : inner'.rooms = inner.rooms)
    (hid : inner'.nextSubscriberId = inner.nextSubscriberId)
    (hnotify : inner.nextNotify ≤ inner'.nextNotify) : Shrinks inner inner' := by
  refine ⟨hid, hnotify, fun key room h => .inl ⟨room, ?_, rfl, suffix_rfl, fun _ hid => hid⟩⟩
  rw [room?, ← hrooms]
  exact h

theorem purge (limits : BrokerLimits) (clock : Readings) (inner : BrokerStateInner) :
    Shrinks inner (inner.purgeExpiredRooms limits clock) := by
  refine ⟨rfl, le_rfl, ?_⟩
  intro key room' hroom'
  rw [room?_purgeExpiredRooms] at hroom'
  obtain ⟨room, hroom, hpurged⟩ := Option.bind_eq_some_iff.mp hroom'
  split at hpurged
  · obtain ⟨dropped, kept, hsplit, hpurge, _⟩ :=
      room.purgeExpiredBacklog_spec limits.replayTtl (clock.purge key)
    rw [hpurge] at hpurged
    rw [← Option.some.inj hpurged]
    exact .inl ⟨room, hroom, rfl, ⟨dropped, hsplit.symm⟩, fun _ hid => hid⟩
  · cases hpurged

theorem remove (inner : BrokerStateInner) (key : BrokerStreamKey) :
    Shrinks inner (inner.removeRoom key) := by
  unfold removeRoom
  split
  · refine ⟨rfl, le_rfl, ?_⟩
    intro key' room' hroom'
    rw [room?, KeyedTable.get?_erase] at hroom'
    split at hroom'
    · cases hroom'
    · exact .inl ⟨room', hroom', rfl, suffix_rfl, fun _ hid => hid⟩
  · exact refl inner

theorem withTotal (h : Shrinks inner inner') (total : ℕ) :
    Shrinks inner { inner' with totalBacklogBytes := total } :=
  ⟨h.subscriberId, h.notify, h.rooms⟩

/-- A room written back with less backlog and fewer subscribers. -/
theorem setRoom (hroom : inner.room? key = some room) (room' : BrokerRoom)
    (hnotify : room'.subscriberNotify = room.subscriberNotify)
    (hbacklog : room'.backlog <:+ room.backlog)
    (hsubs : ∀ id ∈ room'.subscribers, id ∈ room.subscribers) :
    Shrinks inner (inner.setRoom key room') := by
  refine ⟨rfl, le_rfl, ?_⟩
  intro key' room'' hroom''
  rw [room?_setRoom] at hroom''
  split at hroom''
  · rename_i heq
    subst heq
    rw [← Option.some.inj hroom'']
    exact .inl ⟨room, hroom, hnotify, hbacklog, hsubs⟩
  · exact .inl ⟨room'', hroom'', rfl, suffix_rfl, fun _ hid => hid⟩

/-- A new room under the key. -/
theorem default (inner : BrokerStateInner) (key : BrokerStreamKey) (now : Instant) :
    Shrinks inner { inner.setRoom key (.default inner.nextNotify now) with
      nextNotify := inner.nextNotify + 1 } := by
  refine ⟨rfl, Nat.le_succ _, ?_⟩
  intro key' room'' hroom''
  change (inner.setRoom key (.default inner.nextNotify now)).room? key' = some room'' at hroom''
  rw [room?_setRoom] at hroom''
  split at hroom''
  · rw [← Option.some.inj hroom'']
    exact .inr ⟨le_rfl, Nat.lt_succ_self _, rfl, rfl⟩
  · exact .inl ⟨room'', hroom'', rfl, suffix_rfl, fun _ hid => hid⟩

/-- Opening the room of a key. -/
theorem enter (h : inner.roomOrDefault limits clock key = .ok (room, inner')) :
    Shrinks inner (inner'.setRoom key room) := by
  unfold roomOrDefault at h
  split at h
  · rename_i stored hget
    obtain ⟨rfl, rfl⟩ := Prod.mk.inj (Except.ok.inj h)
    exact setRoom hget _ rfl suffix_rfl fun _ hid => hid
  · split at h
    · cases h
    · obtain ⟨rfl, rfl⟩ := Prod.mk.inj (Except.ok.inj h)
      exact default inner key clock.created

end Shrinks

namespace BrokerOp

variable (limits : BrokerLimits) (clock : Readings) (inner : BrokerStateInner)
  (key : BrokerStreamKey)

theorem unsubscribe_shrinks (id : ℕ) :
    Shrinks inner (inner.unsubscribe limits clock key id) := by
  have hpurge := Shrinks.purge limits clock inner
  unfold BrokerStateInner.unsubscribe
  dsimp only
  split
  · exact hpurge
  · rename_i room hroom
    have hset := hpurge.trans (Shrinks.setRoom hroom
      (({ room with subscribers := room.subscribers.filter (· ≠ id) }).touch clock.active)
      (BrokerRoom.touch_subscriberNotify _ _)
      (by rw [BrokerRoom.touch_backlog])
      (by rw [BrokerRoom.touch_subscribers]; exact fun i hi => (mem_filter.mp hi).1))
    split
    · exact hset.trans (Shrinks.remove _ key)
    · exact hset

theorem pollSubscriber_shrinks : Shrinks inner (inner.pollSubscriber limits clock key).2 := by
  have hpurge := Shrinks.purge limits clock inner
  unfold BrokerStateInner.pollSubscriber
  dsimp only
  split
  · exact hpurge
  · rename_i room entered hroom
    split
    · obtain ⟨hrooms, _, hid, hcases⟩ := roomOrDefault_ok hroom
      have hentered : Shrinks (inner.purgeExpiredRooms limits clock) entered := by
        refine .of_rooms hrooms hid ?_
        rcases hcases with ⟨_, hnext⟩ | ⟨_, _, _, hnext⟩ <;> omega
      exact ((hpurge.trans hentered).trans (Shrinks.default entered key clock.active)).withTotal _
    · exact hpurge.trans (Shrinks.enter hroom)

theorem markRoomFinished_shrinks : Shrinks inner (inner.markRoomFinished limits clock key).2 := by
  have hpurge := Shrinks.purge limits clock inner
  unfold BrokerStateInner.markRoomFinished
  dsimp only
  split
  · exact hpurge
  · rename_i room hroom
    obtain ⟨dropped, kept, hsplit, hpurged, _⟩ :=
      ({ room with subscribers := [] } : BrokerRoom).purgeExpiredBacklog_spec limits.replayTtl
        clock.backlog
    rw [hpurged]
    dsimp only at hsplit ⊢
    have hset : ∀ finishedAt lastActivityAt, Shrinks inner
        ((inner.purgeExpiredRooms limits clock).setRoom key
          ⟨[], kept, room.backlogBytes - backlogSum dropped, room.subscriberNotify, finishedAt,
            lastActivityAt⟩) := by
      intro finishedAt lastActivityAt
      refine hpurge.trans (Shrinks.setRoom hroom _ rfl ⟨dropped, hsplit.symm⟩ ?_)
      intro id hid
      cases hid
    split
    · exact ((hset _ _).withTotal _).trans (Shrinks.remove _ key)
    · exact (hset _ _).withTotal _

/-- Every operation except subscriptions and publications only drops. -/
theorem apply_shrinks {op : BrokerOp} (hsub : ∀ key, op ≠ .subscribe key)
    (hpub : ∀ key record accepts, op ≠ .publish key record accepts) :
    Shrinks inner (op.apply limits clock inner) := by
  cases op with
  | subscribe key => exact absurd rfl (hsub key)
  | publish key record accepts => exact absurd rfl (hpub key record accepts)
  | unsubscribe key id => exact unsubscribe_shrinks limits clock inner key id
  | pollSubscriber key => exact pollSubscriber_shrinks limits clock inner key
  | dropEmptyUnfinishedRoom key =>
    unfold apply BrokerStateInner.dropEmptyUnfinishedRoom
    dsimp only
    split
    · exact Shrinks.remove inner key
    · exact Shrinks.refl inner
  | dropRoom key => exact Shrinks.remove inner key
  | markRoomFinished key => exact markRoomFinished_shrinks limits clock inner key
  | dropExpiredFinishedRoom key =>
    unfold apply BrokerStateInner.dropExpiredFinishedRoom
    dsimp only
    split
    · exact Shrinks.remove inner key
    · exact Shrinks.refl inner
  | purge => exact Shrinks.purge limits clock inner

end BrokerOp

/-! ### The invariant -/

/-- The backlog as publications. -/
def BacklogRecord.publication (entry : BacklogRecord) : Publication :=
  ⟨entry.appendedAt, entry.record⟩

/-- A room: its backlog is an end of what was published into it, and its subscribers
subscribed to it. -/
structure RoomGapless (limits : BrokerLimits) (s : BrokerTrace) (key : BrokerStreamKey)
    (room : BrokerRoom) : Prop where
  notify : room.subscriberNotify < s.inner.nextNotify
  backlog : room.backlog.map BacklogRecord.publication <:+
    s.published key room.subscriberNotify
  window : limits.replayTtl = 0 → room.backlog = []
  known : ∀ id ∈ room.subscribers, id < s.inner.nextSubscriberId
  subscribers : ∀ sub ∈ s.subscriptions, sub.id ∈ room.subscribers →
    sub.key = key ∧ sub.room = room.subscriberNotify

/-- The subscriber is in the room of its key. -/
def Registered (inner : BrokerStateInner) (sub : Subscription) : Prop :=
  ∃ room, inner.room? sub.key = some room ∧ sub.id ∈ room.subscribers

/-- What a subscriber got is a contiguous part of what was published into its room, in
order; up to the end while it is registered; and the snapshot was inside the replay
window. -/
def SubscriberGapless (limits : BrokerLimits) (s : BrokerTrace) (sub : Subscription) : Prop :=
  ∃ before block after, s.published sub.key sub.room = before ++ (block ++ after) ∧
    block.map Publication.record = sub.snapshot ++ sub.queued ∧
    (∀ publication ∈ block.take sub.snapshot.length,
      sub.subscribedAt - publication.publishedAt < limits.replayTtl) ∧
    (Registered s.inner sub → after = [])

open BrokerTrace

structure Gapless (limits : BrokerLimits) (time : Instant) (s : BrokerTrace) : Prop where
  rooms : ∀ key room, s.inner.room? key = some room → RoomGapless limits s key room
  unused : ∀ key room, s.inner.nextNotify ≤ room → s.published key room = []
  ordered : ∀ key room,
    (s.published key room).Pairwise fun p p' => p.publishedAt ≤ p'.publishedAt
  past : ∀ key room, ∀ p ∈ s.published key room, p.publishedAt ≤ time
  ids : ∀ sub ∈ s.subscriptions, sub.id < s.inner.nextSubscriberId
  subscribers : ∀ sub ∈ s.subscriptions, SubscriberGapless limits s sub

section Steps

variable {limits : BrokerLimits} {s : BrokerTrace} {time now : Instant}
  {inner : BrokerStateInner} {key : BrokerStreamKey} {room : BrokerRoom}

theorem Registered.of_shrinks {inner' : BrokerStateInner} (h : Shrinks inner inner')
    {sub : Subscription} (hsub : Registered inner' sub) : Registered inner sub := by
  obtain ⟨room', hroom', hmem⟩ := hsub
  rcases h.rooms _ room' hroom' with ⟨room, hroom, _, _, hsubs⟩ | ⟨_, _, _, hnone⟩
  · exact ⟨room, hroom, hsubs _ hmem⟩
  · rw [hnone] at hmem
    cases hmem

theorem Gapless.shrink (h : Gapless limits time s) (hinner : Shrinks s.inner inner)
    (htime : time ≤ now) : Gapless limits now { s with inner := inner } := by
  refine ⟨?_, fun key room hle => h.unused key room (hinner.notify.trans hle), h.ordered,
    fun key room p hp => (h.past key room p hp).trans htime, ?_, ?_⟩
  · intro key room' hroom'
    rcases hinner.rooms key room' hroom' with
      ⟨room, hroom, hnotify, hbacklog, hsubs⟩ | ⟨hle, hlt, hbacklog, hsubs⟩
    · have hold := h.rooms key room hroom
      refine ⟨hnotify ▸ hold.notify.trans_le hinner.notify, ?_, ?_, ?_, ?_⟩
      · rw [hnotify]
        exact (hbacklog.map _).trans hold.backlog
      · intro hzero
        rw [hold.window hzero] at hbacklog
        exact suffix_nil.mp hbacklog
      · intro id hid
        rw [hinner.subscriberId]
        exact hold.known id (hsubs id hid)
      · intro sub hsub hmem
        rw [hnotify]
        exact hold.subscribers sub hsub (hsubs _ hmem)
    · refine ⟨hlt, ?_, fun _ => hbacklog, ?_, ?_⟩
      · rw [hbacklog]
        exact nil_suffix
      · intro id hid
        rw [hsubs] at hid
        cases hid
      · intro sub _ hmem
        rw [hsubs] at hmem
        cases hmem
  · intro sub hsub
    have := h.ids sub hsub
    rwa [← hinner.subscriberId] at this
  · intro sub hsub
    obtain ⟨before, block, after, hsplit, hblock, hwindow, hregistered⟩ := h.subscribers sub hsub
    exact ⟨before, block, after, hsplit, hblock, hwindow,
      fun hreg => hregistered (hreg.of_shrinks hinner)⟩

/-- The entries that are left by a purge are inside the replay window, since they were
appended in the order of time. -/
theorem window_of_head {backlog : List BacklogRecord} {published : List Publication}
    (hsuffix : backlog.map publication <:+ published)
    (hordered : published.Pairwise fun p p' => p.publishedAt ≤ p'.publishedAt) {replayTtl : ℕ}
    (hhead : ∀ entry, backlog.head? = some entry → now - entry.appendedAt < replayTtl) :
    ∀ p ∈ backlog.map publication, now - p.publishedAt < replayTtl := by
  cases backlog with
  | nil =>
    intro p hp
    cases hp
  | cons entry backlog =>
    have hfirst := hhead entry rfl
    have hsorted := hordered.sublist hsuffix.sublist
    rw [map_cons, pairwise_cons] at hsorted
    intro p hp
    rw [map_cons] at hp
    rcases mem_cons.mp hp with rfl | hp
    · exact hfirst
    · have hle := hsorted.1 p hp
      exact lt_of_le_of_lt (Nat.sub_le_sub_left hle now) hfirst

/-- The room of a key was rewritten. -/
structure Rewrites (inner : BrokerStateInner) (key : BrokerStreamKey) (room : BrokerRoom)
    (inner' : BrokerStateInner) : Prop where
  rooms : ∀ key', inner'.room? key' = if key = key' then some room else inner.room? key'
  notify : inner'.nextNotify = inner.nextNotify

/-- A stored room is the rewritten one, or was there before. -/
theorem Rewrites.cases {inner' : BrokerStateInner} (h : Rewrites inner key room inner')
    {key' : BrokerStreamKey} {stored : BrokerRoom} (hstored : inner'.room? key' = some stored) :
    key' = key ∧ stored = room ∨ key' ≠ key ∧ inner.room? key' = some stored := by
  rw [h.rooms] at hstored
  split at hstored
  · rename_i hkey
    exact .inl ⟨hkey.symm, (Option.some.inj hstored).symm⟩
  · rename_i hkey
    exact .inr ⟨fun heq => hkey heq.symm, hstored⟩

theorem Rewrites.registered {inner' : BrokerStateInner} (h : Rewrites inner key room inner')
    {sub : Subscription} (hsub : Registered inner' sub) :
    sub.key = key ∧ sub.id ∈ room.subscribers ∨ sub.key ≠ key ∧ Registered inner sub := by
  obtain ⟨stored, hstored, hmem⟩ := hsub
  rcases h.cases hstored with ⟨hkey, rfl⟩ | ⟨hkey, hstored⟩
  · exact .inl ⟨hkey, hmem⟩
  · exact .inr ⟨hkey, stored, hstored, hmem⟩

variable {room' : BrokerRoom}

/-- A subscriber with a new id may enter the room of its key, after the purge of the backlog at
`now`. -/
structure Joins (limits : BrokerLimits) (s : BrokerTrace) (now : Instant) (key : BrokerStreamKey)
    (room room' : BrokerRoom) (inner : BrokerStateInner) : Prop where
  stored : s.inner.room? key = some room
  rewrites : Rewrites s.inner key room' inner
  nextId : inner.nextSubscriberId = s.inner.nextSubscriberId + 1
  notify : room'.subscriberNotify = room.subscriberNotify
  backlog : room'.backlog <:+ room.backlog
  head : ∀ entry, room'.backlog.head? = some entry → now - entry.appendedAt < limits.replayTtl
  subscribers : ∀ id ∈ room'.subscribers, id ∈ room.subscribers ∨ id = s.inner.nextSubscriberId

/-- The subscription of the new subscriber. -/
def BrokerTrace.joining (s : BrokerTrace) (now : Instant) (key : BrokerStreamKey)
    (room room' : BrokerRoom) : Subscription :=
  ⟨s.inner.nextSubscriberId, key, room.subscriberNotify, now, room'.backlog.map record, []⟩

/-- The trace with the new subscriber. -/
def BrokerTrace.joined (s : BrokerTrace) (now : Instant) (key : BrokerStreamKey)
    (room room' : BrokerRoom) (inner : BrokerStateInner) : BrokerTrace :=
  { s with
    inner := inner
    subscriptions := s.subscriptions ++ [s.joining now key room room'] }

namespace Joins

/-- The ids in use before are not the new one. -/
theorem mem_old (hj : Joins limits s now key room room' inner) (h : Gapless limits time s)
    {sub : Subscription} (hsub : sub ∈ s.subscriptions) (hin : sub.id ∈ room'.subscribers) :
    sub.id ∈ room.subscribers := by
  refine (hj.subscribers _ hin).resolve_right fun heq => ?_
  have := h.ids sub hsub
  omega

theorem suffix (hj : Joins limits s now key room room' inner) (h : Gapless limits time s) :
    room'.backlog.map publication <:+ s.published key room.subscriberNotify :=
  (hj.backlog.map _).trans (h.rooms key room hj.stored).backlog

theorem room_gapless (hj : Joins limits s now key room room' inner) (h : Gapless limits time s) :
    RoomGapless limits (s.joined now key room room' inner) key room' := by
  have hold := h.rooms key room hj.stored
  refine ⟨?_, ?_, ?_, ?_, ?_⟩
  · rw [hj.notify]
    exact hj.rewrites.notify ▸ hold.notify
  · rw [hj.notify]
    exact hj.suffix h
  · intro hzero
    have hbacklog := hj.backlog
    rw [hold.window hzero] at hbacklog
    exact suffix_nil.mp hbacklog
  · intro id hin
    refine Nat.lt_of_lt_of_eq ?_ hj.nextId.symm
    rcases hj.subscribers id hin with hin | rfl
    · exact (hold.known id hin).trans (Nat.lt_succ_self _)
    · exact Nat.lt_succ_self _
  · intro sub hsub hin
    rw [hj.notify]
    rcases mem_append.mp hsub with hsub | hsub
    · exact hold.subscribers sub hsub (hj.mem_old h hsub hin)
    · rw [mem_singleton.mp hsub]
      exact ⟨rfl, rfl⟩

theorem other_gapless (hj : Joins limits s now key room room' inner) {key' : BrokerStreamKey}
    {stored : BrokerRoom} (hother : RoomGapless limits s key' stored) :
    RoomGapless limits (s.joined now key room room' inner) key' stored := by
  refine ⟨hj.rewrites.notify ▸ hother.notify, hother.backlog, hother.window, ?_, ?_⟩
  · intro id hin
    exact Nat.lt_of_lt_of_eq ((hother.known id hin).trans (Nat.lt_succ_self _)) hj.nextId.symm
  · intro sub hsub hin
    rcases mem_append.mp hsub with hsub | hsub
    · exact hother.subscribers sub hsub hin
    · rw [mem_singleton.mp hsub] at hin
      exact absurd (hother.known _ hin) (lt_irrefl _)

theorem subscriber_gapless (hj : Joins limits s now key room room' inner)
    (h : Gapless limits time s) {sub : Subscription} (hsub : sub ∈ s.subscriptions) :
    SubscriberGapless limits (s.joined now key room room' inner) sub := by
  obtain ⟨before, block, after, hsplit, hblock, hwindow, hregistered⟩ := h.subscribers sub hsub
  refine ⟨before, block, after, hsplit, hblock, hwindow, fun hreg => hregistered ?_⟩
  rcases hj.rewrites.registered hreg with ⟨hkey, hin⟩ | ⟨_, hreg⟩
  · exact ⟨room, hkey ▸ hj.stored, hj.mem_old h hsub hin⟩
  · exact hreg

theorem joining_gapless (hj : Joins limits s now key room room' inner)
    (h : Gapless limits time s) :
    SubscriberGapless limits (s.joined now key room room' inner)
      (s.joining now key room room') := by
  obtain ⟨before, hbefore⟩ := hj.suffix h
  refine ⟨before, room'.backlog.map publication, [], ?_, ?_, ?_, fun _ => rfl⟩
  · rw [append_nil]
    exact hbefore.symm
  · rw [map_map, joining, append_nil]
    rfl
  · intro p hp
    exact window_of_head ⟨before, hbefore⟩ (h.ordered _ _) hj.head p (mem_of_mem_take hp)

end Joins

theorem Gapless.subscribe (h : Gapless limits time s)
    (hj : Joins limits s now key room room' inner) :
    Gapless limits time (s.joined now key room room' inner) := by
  refine ⟨?_, ?_, h.ordered, h.past, ?_, ?_⟩
  · intro key' stored hstored
    rcases hj.rewrites.cases hstored with ⟨rfl, rfl⟩ | ⟨_, hstored⟩
    · exact hj.room_gapless h
    · exact hj.other_gapless (h.rooms key' stored hstored)
  · intro key' n hle
    exact h.unused key' n (hj.rewrites.notify ▸ hle)
  · intro sub hsub
    refine Nat.lt_of_lt_of_eq ?_ hj.nextId.symm
    rcases mem_append.mp hsub with hsub | hsub
    · exact (h.ids sub hsub).trans (Nat.lt_succ_self _)
    · rw [mem_singleton.mp hsub]
      exact Nat.lt_succ_self _
  · intro sub hsub
    rcases mem_append.mp hsub with hsub | hsub
    · exact hj.subscriber_gapless h hsub
    · rw [mem_singleton.mp hsub]
      exact hj.joining_gapless h

/-- The subscription a subscription was before a record was put into the queues. -/
theorem mem_enqueue {subscriptions : List Subscription} {takers : List ℕ}
    {record : AgentTextStreamRecordV1} {sub : Subscription}
    (h : sub ∈ enqueue subscriptions takers record) :
    ∃ old ∈ subscriptions, sub =
      { old with queued := old.queued ++ if old.id ∈ takers then [record] else [] } := by
  obtain ⟨old, hold, heq⟩ := mem_map.mp h
  refine ⟨old, hold, ?_⟩
  rw [← heq]
  split
  · rfl
  · rw [append_nil]

theorem publishInto_eq (published : BrokerStreamKey → ℕ → List Publication)
    (key key' : BrokerStreamKey) (n n' : ℕ) (p : Publication) :
    publishInto published key n p key' n' =
      published key' n' ++ if key' = key ∧ n' = n then [p] else [] := by
  unfold publishInto
  split
  · rfl
  · rw [append_nil]

/-- A record is published at `now` into the room of its key, and put into the queues of the
subscribers that stay. -/
structure Publishes (limits : BrokerLimits) (s : BrokerTrace) (now : Instant)
    (key : BrokerStreamKey) (room : BrokerRoom) (record : AgentTextStreamRecordV1)
    (room' : BrokerRoom) (inner : BrokerStateInner) : Prop where
  stored : s.inner.room? key = some room
  rewrites : Rewrites s.inner key room' inner
  nextId : inner.nextSubscriberId = s.inner.nextSubscriberId
  notify : room'.subscriberNotify = room.subscriberNotify
  backlog : room'.backlog.map publication <:+ room.backlog.map publication ++ [⟨now, record⟩]
  window : limits.replayTtl = 0 → room'.backlog = []
  subscribers : ∀ id ∈ room'.subscribers, id ∈ room.subscribers

/-- The trace with the record. -/
def BrokerTrace.extended (s : BrokerTrace) (now : Instant) (key : BrokerStreamKey)
    (room : BrokerRoom) (record : AgentTextStreamRecordV1) (room' : BrokerRoom)
    (inner : BrokerStateInner) : BrokerTrace :=
  ⟨inner, publishInto s.published key room.subscriberNotify ⟨now, record⟩,
    enqueue s.subscriptions room'.subscribers record⟩

/-- What was published into a room, with the record if it is the one of the key. -/
theorem BrokerTrace.published_extended (s : BrokerTrace) (now : Instant)
    (key key' : BrokerStreamKey) (room : BrokerRoom) (record : AgentTextStreamRecordV1)
    (room' : BrokerRoom) (inner : BrokerStateInner) (n : ℕ) :
    (s.extended now key room record room' inner).published key' n =
      s.published key' n ++
        if key' = key ∧ n = room.subscriberNotify then [⟨now, record⟩] else [] :=
  publishInto_eq _ _ _ _ _ _

variable {record : AgentTextStreamRecordV1}

namespace Publishes

theorem room_gapless (hp : Publishes limits s now key room record room' inner)
    (h : Gapless limits time s) :
    RoomGapless limits (s.extended now key room record room' inner) key room' := by
  have hold := h.rooms key room hp.stored
  refine ⟨?_, ?_, hp.window, ?_, ?_⟩
  · rw [hp.notify]
    exact hp.rewrites.notify ▸ hold.notify
  · rw [hp.notify, published_extended, if_pos ⟨rfl, rfl⟩]
    obtain ⟨before, hbefore⟩ := hold.backlog
    exact hp.backlog.trans ⟨before, by rw [← hbefore, append_assoc]⟩
  · intro id hin
    exact Nat.lt_of_lt_of_eq (hold.known id (hp.subscribers id hin)) hp.nextId.symm
  · intro sub hsub hin
    obtain ⟨old, hmem, rfl⟩ := mem_enqueue hsub
    rw [hp.notify]
    exact hold.subscribers old hmem (hp.subscribers _ hin)

theorem other_gapless (hp : Publishes limits s now key room record room' inner)
    {key' : BrokerStreamKey} (hkey : key' ≠ key) {stored : BrokerRoom}
    (hother : RoomGapless limits s key' stored) :
    RoomGapless limits (s.extended now key room record room' inner) key' stored := by
  refine ⟨hp.rewrites.notify ▸ hother.notify, ?_, hother.window, ?_, ?_⟩
  · rw [published_extended, if_neg fun hand => hkey hand.1, append_nil]
    exact hother.backlog
  · intro id hin
    exact Nat.lt_of_lt_of_eq (hother.known id hin) hp.nextId.symm
  · intro sub hsub hin
    obtain ⟨old, hmem, rfl⟩ := mem_enqueue hsub
    exact hother.subscribers old hmem hin

theorem unused (hp : Publishes limits s now key room record room' inner)
    (h : Gapless limits time s) (key' : BrokerStreamKey) {n : ℕ} (hle : inner.nextNotify ≤ n) :
    (s.extended now key room record room' inner).published key' n = [] := by
  have hle' : s.inner.nextNotify ≤ n := hp.rewrites.notify ▸ hle
  have hne : n ≠ room.subscriberNotify := by
    have := (h.rooms key room hp.stored).notify
    omega
  rw [published_extended, if_neg fun hand => hne hand.2, append_nil]
  exact h.unused key' n hle'

/-- A subscriber whose queue takes the record was registered, so its block went up to the
end, and still does. -/
theorem taker_gapless (hp : Publishes limits s now key room record room' inner)
    (h : Gapless limits time s) {old : Subscription} (hmem : old ∈ s.subscriptions)
    (htakes : old.id ∈ room'.subscribers) :
    SubscriberGapless limits (s.extended now key room record room' inner)
      { old with queued := old.queued ++ [record] } := by
  obtain ⟨before, block, after, hsplit, hblock, hfresh, hregistered⟩ := h.subscribers old hmem
  have hin := hp.subscribers _ htakes
  obtain ⟨hkey, hsame⟩ := (h.rooms key room hp.stored).subscribers old hmem hin
  have hend := hregistered ⟨room, hkey ▸ hp.stored, hin⟩
  rw [hend, append_nil] at hsplit
  refine ⟨before, block ++ [⟨now, record⟩], [], ?_, ?_, ?_, fun _ => rfl⟩
  · rw [published_extended, if_pos ⟨hkey, hsame⟩, hsplit, append_nil, append_assoc]
  · rw [map_append, hblock, append_assoc]
    rfl
  · have hlength := congrArg length hblock
    rw [length_map, length_append] at hlength
    rw [take_append_of_le_length (by dsimp only; omega)]
    exact hfresh

theorem passed_gapless (hp : Publishes limits s now key room record room' inner)
    (h : Gapless limits time s) {old : Subscription} (hmem : old ∈ s.subscriptions)
    (htakes : old.id ∉ room'.subscribers) :
    SubscriberGapless limits (s.extended now key room record room' inner) old := by
  obtain ⟨before, block, after, hsplit, hblock, hfresh, hregistered⟩ := h.subscribers old hmem
  refine ⟨before, block,
    after ++ if old.key = key ∧ old.room = room.subscriberNotify then [⟨now, record⟩] else [],
    ?_, hblock, hfresh, ?_⟩
  · rw [published_extended, hsplit, append_assoc, append_assoc]
  · intro hreg
    rcases hp.rewrites.registered hreg with ⟨_, hin⟩ | ⟨hkey, hreg⟩
    · exact absurd hin htakes
    · rw [hregistered hreg, if_neg fun hand => hkey hand.1]
      rfl

end Publishes

theorem Gapless.publish (h : Gapless limits now s)
    (hp : Publishes limits s now key room record room' inner) :
    Gapless limits now (s.extended now key room record room' inner) := by
  refine ⟨?_, fun key' n hle => hp.unused h key' hle, ?_, ?_, ?_, ?_⟩
  · intro key' stored hstored
    rcases hp.rewrites.cases hstored with ⟨rfl, rfl⟩ | ⟨hkey, hstored⟩
    · exact hp.room_gapless h
    · exact hp.other_gapless hkey (h.rooms key' stored hstored)
  · intro key' n
    rw [published_extended, pairwise_append]
    refine ⟨h.ordered key' n, ?_, ?_⟩
    · split
      · exact pairwise_singleton _ _
      · exact List.Pairwise.nil
    · intro p hp p' hp'
      split at hp'
      · rw [mem_singleton.mp hp']
        exact h.past key' n p hp
      · cases hp'
  · intro key' n p hp
    rw [published_extended] at hp
    rcases mem_append.mp hp with hp | hp
    · exact h.past key' n p hp
    · split at hp
      · rw [mem_singleton.mp hp]
      · cases hp
  · intro sub hsub
    obtain ⟨old, hmem, rfl⟩ := mem_enqueue hsub
    exact Nat.lt_of_lt_of_eq (h.ids old hmem) hp.nextId.symm
  · intro sub hsub
    obtain ⟨old, hmem, rfl⟩ := mem_enqueue hsub
    by_cases htakes : old.id ∈ room'.subscribers
    · rw [if_pos htakes]
      exact hp.taker_gapless h hmem htakes
    · rw [if_neg htakes, append_nil]
      exact hp.passed_gapless h hmem htakes

end Steps

/-! ### Runs -/

section Runs

variable {limits : BrokerLimits} {s : BrokerTrace} {time : Instant} {clock : Readings}
  {inner entered : BrokerStateInner} {key : BrokerStreamKey} {room : BrokerRoom}

theorem Readings.Forward.since_le_last (h : clock.Forward time) : time ≤ clock.last :=
  h.since_le.trans (h.le_last 0)

theorem roomId_eq (h : inner.room? key = some room) :
    roomId inner key = room.subscriberNotify := by
  rw [roomId, h, Option.elim_some]

theorem room?_setRoom_self (inner : BrokerStateInner) (key : BrokerStreamKey)
    (room : BrokerRoom) : (inner.setRoom key room).room? key = some room := by
  rw [room?_setRoom, if_pos rfl]

/-- The room of a key is written twice. -/
theorem Rewrites.set_set (inner : BrokerStateInner) (key : BrokerStreamKey)
    (room room' : BrokerRoom) :
    Rewrites (inner.setRoom key room) key room' (inner.setRoom key room') := by
  refine ⟨fun key' => ?_, rfl⟩
  rw [room?_setRoom, room?_setRoom]
  split <;> rfl

theorem Rewrites.congr {inner' : BrokerStateInner} (h : Rewrites entered key room inner)
    (hrooms : inner'.rooms = inner.rooms) (hnotify : inner'.nextNotify = inner.nextNotify) :
    Rewrites entered key room inner' := by
  refine ⟨fun key' => ?_, hnotify.trans h.notify⟩
  rw [room?, hrooms]
  exact h.rooms key'

theorem mem_register {id id' : ℕ} (h : id ∈ (room.register id').subscribers) :
    id ∈ room.subscribers ∨ id = id' := by
  unfold BrokerRoom.register at h
  split at h
  · exact (mem_append.mp h).imp_right mem_singleton.mp
  · exact .inl h

theorem Gapless.step_subscribe (h : Gapless limits time s) (hclock : clock.Forward time)
    (key : BrokerStreamKey) :
    Gapless limits clock.last (s.step limits clock (.subscribe key)) := by
  have hpurge := Shrinks.purge limits clock s.inner
  unfold BrokerTrace.step BrokerStateInner.subscribe
  dsimp only
  cases hroom : (s.inner.purgeExpiredRooms limits clock).roomOrDefault limits clock key with
  | error e => exact h.shrink hpurge hclock.since_le_last
  | ok entry =>
    obtain ⟨room, entered⟩ := entry
    have hentered := h.shrink (hpurge.trans (Shrinks.enter hroom)) hclock.since_le_last
    obtain ⟨dropped, kept, hsplit, hpurged, hhead⟩ :=
      (room.touch clock.active).purgeExpiredBacklog_spec limits.replayTtl clock.backlog
    dsimp only
    rw [hpurged]
    dsimp only
    rw [BrokerRoom.touch_backlog] at hsplit
    generalize hroom' : BrokerRoom.register _ _ = room'
    have hnotify : room'.subscriberNotify = room.subscriberNotify := by
      rw [← hroom', BrokerRoom.register_subscriberNotify]
      exact BrokerRoom.touch_subscriberNotify room _
    have hbacklog : room'.backlog = kept := by
      rw [← hroom', BrokerRoom.register_backlog]
    have hstored : BrokerTrace.roomId
        { entered.setRoom key room' with
          nextSubscriberId := entered.nextSubscriberId + 1
          totalBacklogBytes := entered.totalBacklogBytes - backlogSum dropped } key =
        room.subscriberNotify :=
      (roomId_eq (room?_setRoom_self entered key room')).trans hnotify
    rw [hstored, ← hbacklog]
    refine hentered.subscribe ⟨room?_setRoom_self entered key room, ?_, ?_, hnotify, ?_, ?_, ?_⟩
    · exact (Rewrites.set_set entered key room room').congr rfl rfl
    · rfl
    · exact ⟨dropped, by rw [hbacklog, hsplit]⟩
    · rw [hbacklog]
      intro entry hentry
      -- The turn that kept the head was not before the first one.
      exact lt_of_le_of_lt (Nat.sub_le_sub_right (hclock.backlog (Nat.zero_le _)) _)
        (hhead entry hentry)
    · intro id hid
      rw [← hroom'] at hid
      have hmem := mem_register hid
      dsimp only at hmem
      rw [BrokerRoom.touch_subscribers] at hmem
      exact hmem

theorem retainedBytes_eq_none_iff {record : AgentTextStreamRecordV1} {recordBytes : Option ℕ}
    (h : retainedBytes limits record = .ok recordBytes) :
    recordBytes = none ↔ limits.replayTtl = 0 := by
  unfold retainedBytes at h
  split at h
  · rename_i hzero
    rw [← Except.ok.inj h]
    exact iff_of_true rfl hzero
  · rename_i hzero
    split at h
    · cases h
    · split at h
      · cases h
      · rw [← Except.ok.inj h]
        exact iff_of_false (Option.some_ne_none _) hzero

/-- What a publication does before it retains the record only drops. -/
theorem enterPublish_shrinks (limits : BrokerLimits) (clock : Readings) (key : BrokerStreamKey)
    (record : AgentTextStreamRecordV1) (inner : BrokerStateInner) :
    match inner.enterPublish limits clock key record with
    | (.error _, inner') => Shrinks inner inner'
    | (.ok (recordBytes, room, inner'), _) =>
      Shrinks inner (inner'.setRoom key room) ∧ (recordBytes = none ↔ limits.replayTtl = 0) := by
  have hpurge := Shrinks.purge limits clock inner
  unfold BrokerStateInner.enterPublish
  cases hbytes : BrokerStateInner.retainedBytes limits record with
  | error e => exact Shrinks.refl inner
  | ok recordBytes =>
    dsimp only
    have hreset : Shrinks inner
        (if ((inner.purgeExpiredRooms limits clock).room? key).any (·.finishedAt.isSome) then
          (inner.purgeExpiredRooms limits clock).removeRoom key
        else inner.purgeExpiredRooms limits clock) := by
      split
      · exact hpurge.trans (Shrinks.remove _ key)
      · exact hpurge
    generalize (if ((inner.purgeExpiredRooms limits clock).room? key).any
        (·.finishedAt.isSome) then
      (inner.purgeExpiredRooms limits clock).removeRoom key
      else inner.purgeExpiredRooms limits clock) = reset at hreset ⊢
    cases hroom : reset.roomOrDefault limits clock key with
    | error e => exact hreset
    | ok entry => exact ⟨hreset.trans (Shrinks.enter hroom), retainedBytes_eq_none_iff hbytes⟩

/-- The backlog after a publication is an end of the old one with the record. -/
theorem retain_backlog (limits : BrokerLimits) (clock : Readings)
    (record : AgentTextStreamRecordV1) (room : BrokerRoom) {recordBytes : Option ℕ}
    (hbytes : recordBytes = none ↔ limits.replayTtl = 0)
    (hwindow : limits.replayTtl = 0 → room.backlog = []) (total : ℕ) :
    ∃ kept bytes total', retain limits clock record recordBytes room total =
        ({ room with backlog := kept, backlogBytes := bytes }, total') ∧
      kept.map publication <:+
        room.backlog.map publication ++ [⟨clock.last, record⟩] ∧
      (limits.replayTtl = 0 → kept = []) := by
  cases recordBytes with
  | none =>
    have hnil := hwindow (hbytes.mp rfl)
    refine ⟨room.backlog, room.backlogBytes, total, rfl, ?_, hwindow⟩
    rw [hnil]
    exact nil_suffix
  | some b =>
    obtain ⟨expired, fresh, hsplit, hpurged, _⟩ :=
      room.purgeExpiredBacklog_spec limits.replayTtl clock.backlog
    obtain ⟨evicted, kept, hevict, hloop, _⟩ := BrokerRoom.evictLoop_spec limits
      (fresh ++ [⟨record, b, clock.last⟩]) (room.backlogBytes - backlogSum expired + b)
      (total - backlogSum expired + b)
    refine ⟨kept, _, _, by rw [retain, hpurged]; dsimp only; rw [hloop], ?_, ?_⟩
    · refine ⟨(expired ++ evicted).map publication, ?_⟩
      rw [← map_append, append_assoc, ← hevict, ← append_assoc, ← hsplit,
        map_append]
      rfl
    · exact fun hzero => absurd (hbytes.mpr hzero) (Option.some_ne_none b)

theorem Gapless.step_publish (h : Gapless limits time s) (htime : time ≤ clock.last)
    (key : BrokerStreamKey) (record : AgentTextStreamRecordV1) (accepts : ℕ → Bool) :
    Gapless limits clock.last (s.step limits clock (.publish key record accepts)) := by
  have henter := enterPublish_shrinks limits clock key record s.inner
  unfold BrokerTrace.step BrokerStateInner.publish
  dsimp only
  generalize s.inner.enterPublish limits clock key record = result at henter ⊢
  obtain ⟨outcome, inner⟩ := result
  cases outcome with
  | error e => exact h.shrink henter htime
  | ok entry =>
    obtain ⟨recordBytes, room, entered⟩ := entry
    obtain ⟨hshrinks, hbytes⟩ := henter
    have hentered := h.shrink hshrinks htime
    have hold := hentered.rooms key room (room?_setRoom_self entered key room)
    obtain ⟨kept, bytes, total, hretain, hbacklog, hwindow⟩ :=
      retain_backlog limits clock record { room with lastActivityAt := clock.active } hbytes
        hold.window entered.totalBacklogBytes
    dsimp only
    rw [hretain]
    dsimp only
    have hrewrites : ∀ room', Rewrites (entered.setRoom key room) key room'
        { entered.setRoom key room' with totalBacklogBytes := total } :=
      fun room' => (Rewrites.set_set entered key room room').congr rfl rfl
    have hpublished := hentered.publish ⟨room?_setRoom_self entered key room,
      hrewrites ⟨room.subscribers.filter accepts, kept, bytes, room.subscriberNotify,
        room.finishedAt, clock.active⟩,
      rfl, rfl, hbacklog, hwindow, fun id hid => (mem_filter.mp hid).1⟩
    split
    · exact hpublished.shrink (Shrinks.remove _ key) le_rfl
    · exact hpublished

theorem Gapless.step (h : Gapless limits time s) (hclock : clock.Forward time)
    (op : BrokerOp) : Gapless limits clock.last (s.step limits clock op) := by
  cases op with
  | subscribe key => exact h.step_subscribe hclock key
  | publish key record accepts => exact h.step_publish hclock.since_le_last key record accepts
  | _ =>
    refine h.shrink (BrokerOp.apply_shrinks limits clock s.inner ?_ ?_) hclock.since_le_last
    · intro key heq
      cases heq
    · intro key record accepts heq
      cases heq

theorem Gapless.empty (limits : BrokerLimits) : Gapless limits 0 .empty := by
  refine ⟨?_, fun _ _ _ => rfl, fun _ _ => List.Pairwise.nil, ?_, ?_, ?_⟩
  · intro key room hroom
    cases hroom
  · intro key room p hp
    cases hp
  · intro sub hsub
    cases hsub
  · intro sub hsub
    cases hsub

/-- The invariant along the rest of a run. -/
theorem Gapless.steps (h : Gapless limits time s) {ops : List (Readings × BrokerOp)}
    (hclock : Forwards time ops) :
    ∃ time', Gapless limits time' (ops.foldl (fun s op => s.step limits op.1 op.2) s) := by
  induction ops generalizing s time with
  | nil => exact ⟨time, h⟩
  | cons op ops ih => exact ih (h.step hclock.1 op.2) hclock.2

/-- The record is kept beside a run of the broker. -/
theorem run_inner (limits : BrokerLimits) (ops : List (Readings × BrokerOp)) :
    (run limits ops).inner = brokerRun limits ops := by
  induction ops using reverseRecOn with
  | nil => rfl
  | append_singleton ops op ih =>
    rw [run, foldl_concat, brokerRun, foldl_concat]
    rw [run] at ih
    rw [brokerRun] at ih
    rw [← ih]
    generalize foldl _ _ ops = s
    obtain ⟨clock, op⟩ := op
    cases op with
    | subscribe key =>
      unfold step BrokerOp.apply
      dsimp only
      split
      · rename_i heq
        rw [heq]
      · rename_i heq
        rw [heq]
    | publish key record accepts =>
      unfold step BrokerOp.apply
      dsimp only
      split <;> rfl
    | _ => rfl

/-- After every sequence of operations of any clients on any keys, with any limits and any
choice of the queues that take a record, with a clock that does not go back and is read as
often as the broker reads it.

What a subscriber got, its backlog snapshot and then what was put into its queue, is the
records of a contiguous block of what was published to its key into its room; the part
from the snapshot was inside the replay window when it subscribed.  While the subscriber
is registered, this room is the one under the key, and the block goes up to the last
record published. -/
theorem subscribers_gapless (limits : BrokerLimits) (ops : List (Readings × BrokerOp))
    (hclock : Forwards 0 ops) :
    ∀ sub ∈ (BrokerTrace.run limits ops).subscriptions, ∃ before block after,
      (BrokerTrace.run limits ops).published sub.key sub.room = before ++ (block ++ after) ∧
      block.map Publication.record = sub.snapshot ++ sub.queued ∧
      (∀ publication ∈ block.take sub.snapshot.length,
        sub.subscribedAt - publication.publishedAt < limits.replayTtl) ∧
      ∀ room, (brokerRun limits ops).room? sub.key = some room → sub.id ∈ room.subscribers →
        sub.room = room.subscriberNotify ∧ after = [] := by
  obtain ⟨_, h⟩ := (Gapless.empty limits).steps hclock
  intro sub hsub
  obtain ⟨before, block, after, hsplit, hblock, hwindow, hregistered⟩ := h.subscribers sub hsub
  refine ⟨before, block, after, hsplit, hblock, hwindow, ?_⟩
  intro room hroom hmem
  rw [← run_inner] at hroom
  exact ⟨((h.rooms sub.key room hroom).subscribers sub hsub hmem).2,
    hregistered ⟨room, hroom, hmem⟩⟩

end Runs

namespace BrokerSample

def key : BrokerStreamKey := ⟨[1], [2]⟩

def limits : BrokerLimits := ⟨4, 2, 1000, 100⟩

def record (seq : ℕ) : AgentTextStreamRecordV1 :=
  ⟨[1], seq, recordTextDelta, 0, [104, 105]⟩

/-- The clock at `early` for the purge of all rooms, and at `late` from the purge of the
backlog on. -/
def readings (early late : Instant) : Readings :=
  ⟨fun _ => early, fun _ _ => early, early, early, fun _ => late, late⟩

theorem readings_forward (since early late : Instant) (h : since ≤ late) :
    (readings early late).Forward since :=
  ⟨h, fun _ _ _ => le_rfl, fun _ => le_rfl⟩

/-- Two records before a subscriber comes, and two after.  The first leaves the replay window
between the two purges of the subscription, and the queue does not take the last one. -/
def ops : List (Readings × BrokerOp) :=
  [(readings 0 0, .publish key (record 0) fun _ => true),
    (readings 60 60, .publish key (record 1) fun _ => true),
    (readings 90 110, .subscribe key),
    (readings 120 120, .publish key (record 2) fun _ => true),
    (readings 130 130, .publish key (record 3) fun _ => false)]

theorem ops_forwards : Forwards 0 ops :=
  ⟨readings_forward _ _ _ (by decide), readings_forward _ _ _ (by decide),
    readings_forward _ _ _ (by decide), readings_forward _ _ _ (by decide),
    readings_forward _ _ _ (by decide), trivial⟩

def subscription : Subscription := ⟨0, key, 0, 110, [record 1], [record 2]⟩

theorem subscribers_gapless_late :
    Forwards 0 ops ∧
    (BrokerTrace.run limits ops).subscriptions = [subscription] ∧
    ∃ before block after,
      (BrokerTrace.run limits ops).published key 0 = before ++ (block ++ after) ∧
      block.map Publication.record = [record 1] ++ [record 2] := by
  have hrun : (run limits ops).subscriptions = [subscription] := by decide +kernel
  obtain ⟨before, block, after, hsplit, hblock, _⟩ :=
    subscribers_gapless limits ops ops_forwards subscription (by rw [hrun]; decide)
  exact ⟨ops_forwards, hrun, before, block, after, hsplit, hblock⟩

end BrokerSample

end Mdk
