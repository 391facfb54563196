/-
The rooms of the preview broker.

Publishers and subscribers of a stream meet in a room.  A room has the queues of its
subscribers and a backlog of records for late ones, bounded in number, in bytes over
all rooms, and in age by the replay window.  Every operation runs under one lock and
reads the clock wherever the source does (`Readings`).

* `Accounted` — the byte counters of the rooms and of the broker are exact, and the
  limits hold;
* **`broker_accounting`** — the counters are exact and the limits hold after every
  sequence of operations.
-/
import Mdk.StreamRecords

namespace Mdk

open Checks List

/-- Nanoseconds of the monotonic clock. -/
abbrev Instant := ℕ

structure BrokerStreamKey where
  streamId : List UInt8
  startEventId : MessageId
deriving DecidableEq, Repr

/-- The clock as one operation reads it.  First the purge of all rooms reads it for the age of
each room and at each turn of the loop over the room's backlog.  Then it is read for a room that
is created, for the activity of the room, at each turn of the loop over its backlog, and for
what is appended or finished. -/
structure Readings where
  room : BrokerStreamKey → Instant
  purge : BrokerStreamKey → ℕ → Instant
  created : Instant
  active : Instant
  backlog : ℕ → Instant
  last : Instant

def finishedRoomTtl : ℕ := 60 * 10 ^ 9

def unfinishedRoomTtl : ℕ := finishedRoomTtl

inductive QuicBrokerError where
  | write
  | record (error : AgentTextStreamRecordError)
  | streamCrypto (error : QuicTextStreamError)
  | receiveLimit (error : AgentTextStreamReceiveLimitError)
  | roomLimitExceeded (limit : ℕ)
  | backlogRecordTooLarge (recordBytes limit : ℕ)
  | emptyFrame
  | frameTooLarge (length : ℕ)
  | emptyChunkSize
  | chunkSizeTooLarge (length : ℕ)
  | mixedStreamIds
  | unexpectedSequence (expected actual : ℕ)
deriving DecidableEq, Repr

/-- The limits of a broker.  The depth of the subscribers' queues decides which of them
take a record, which the operations are given. -/
structure BrokerLimits where
  maxBacklog : ℕ
  maxRooms : ℕ
  maxBacklogBytes : ℕ
  replayTtl : ℕ

structure BacklogRecord where
  record : AgentTextStreamRecordV1
  bytes : ℕ
  appendedAt : Instant
deriving DecidableEq, Repr

/-- A room.  `subscriberNotify` is the identity of its notifier, a new one for every room
that is created. -/
structure BrokerRoom where
  subscribers : List ℕ
  backlog : List BacklogRecord
  backlogBytes : ℕ
  subscriberNotify : ℕ
  finishedAt : Option Instant
  lastActivityAt : Instant
deriving DecidableEq, Repr

/-- A room is stored with its key. -/
abbrev RoomEntry := BrokerStreamKey × BrokerRoom

structure BrokerStateInner where
  rooms : KeyedTable (Prod.fst : RoomEntry → BrokerStreamKey)
  nextSubscriberId : ℕ
  totalBacklogBytes : ℕ
  /-- The next notifier. -/
  nextNotify : ℕ

namespace BrokerRoom

def default (notify : ℕ) (now : Instant) : BrokerRoom := ⟨[], [], 0, notify, none, now⟩

/-- The loop of `purge_expired_backlog`, which reads the clock at every turn: the entries, the
room's bytes and the bytes freed. -/
def purgeLoop (replayTtl : ℕ) :
    (ℕ → Instant) → List BacklogRecord → ℕ → ℕ → List BacklogRecord × ℕ × ℕ
  | _, [], bytes, freed => ([], bytes, freed)
  | clock, front :: backlog, bytes, freed =>
    if clock 0 - front.appendedAt < replayTtl then (front :: backlog, bytes, freed)
    else purgeLoop replayTtl (clock ∘ Nat.succ) backlog (bytes - front.bytes) (freed + front.bytes)

variable (room : BrokerRoom)

/-- Drop what is older than the replay window from the front of the backlog. -/
def purgeExpiredBacklog (replayTtl : ℕ) (clock : ℕ → Instant) : BrokerRoom × ℕ :=
  let (backlog, bytes, freed) := purgeLoop replayTtl clock room.backlog room.backlogBytes 0
  ({ room with backlog := backlog, backlogBytes := bytes }, freed)

/-- The eviction loop of a publication: the entries, the room's bytes and the broker's. -/
def evictLoop (limits : BrokerLimits) : List BacklogRecord → ℕ → ℕ → List BacklogRecord × ℕ × ℕ
  | [], bytes, total => ([], bytes, total)
  | front :: backlog, bytes, total =>
    if limits.maxBacklog < (front :: backlog).length ∨ limits.maxBacklogBytes < total then
      evictLoop limits backlog (bytes - front.bytes) (total - front.bytes)
    else (front :: backlog, bytes, total)

/-- The activity of an unfinished room. -/
def touch (now : Instant) : BrokerRoom :=
  if room.finishedAt.isNone then { room with lastActivityAt := now } else room

/-- A new subscriber of an unfinished room. -/
def register (id : ℕ) : BrokerRoom :=
  if room.finishedAt.isNone then { room with subscribers := room.subscribers ++ [id] } else room

/-- A room that nobody needs. -/
def idle : Bool :=
  room.subscribers.isEmpty && room.backlog.isEmpty && room.finishedAt.isNone

end BrokerRoom

namespace BrokerStateInner

def empty : BrokerStateInner := ⟨.empty, 0, 0, 0⟩

section

variable (inner : BrokerStateInner) (key : BrokerStreamKey)

def room? : Option BrokerRoom :=
  (inner.rooms.get? key).map Prod.snd

def setRoom (room : BrokerRoom) : BrokerStateInner :=
  { inner with rooms := inner.rooms.upsert (key, room) }

def removeRoom : BrokerStateInner :=
  match inner.room? key with
  | some room =>
    { inner with
      rooms := inner.rooms.erase key
      totalBacklogBytes := inner.totalBacklogBytes - room.backlogBytes }
  | none => inner

end

/-- Whether a room outlives the purge: finished rooms by their age, others while they
have subscribers or recent activity. -/
def retains (now : Instant) (room : BrokerRoom) : Bool :=
  match room.finishedAt with
  | some finishedAt => now - finishedAt < finishedRoomTtl
  | none => !room.subscribers.isEmpty || now - room.lastActivityAt < unfinishedRoomTtl

variable (limits : BrokerLimits) (clock : Readings)

/-- The closure of `rooms.retain`. -/
def purgeRoom (entry : RoomEntry) : Option RoomEntry :=
  if retains (clock.room entry.1) entry.2 then
    some (entry.1, (entry.2.purgeExpiredBacklog limits.replayTtl (clock.purge entry.1)).1)
  else none

theorem purgeRoom_key (entry entry' : RoomEntry) (h : purgeRoom limits clock entry = some entry') :
    entry'.1 = entry.1 := by
  unfold purgeRoom at h
  split at h
  · rw [← Option.some.inj h]
  · cases h

/-- Drop expired rooms and expired backlog, and count the bytes again. -/
def purgeExpiredRooms (inner : BrokerStateInner) : BrokerStateInner :=
  let rooms := inner.rooms.filterMapRows (purgeRoom limits clock) (purgeRoom_key limits clock)
  { inner with
    rooms := rooms
    totalBacklogBytes := (rooms.rows.map fun entry => entry.2.backlogBytes).sum }

variable (key : BrokerStreamKey) (inner : BrokerStateInner)

/-- The room of a key, or a new one if the limit allows it. -/
def roomOrDefault : Except QuicBrokerError (BrokerRoom × BrokerStateInner) :=
  match inner.room? key with
  | some room => .ok (room, inner)
  | none =>
    if inner.rooms.rows.length ≥ limits.maxRooms then .error (.roomLimitExceeded limits.maxRooms)
    else .ok (.default inner.nextNotify clock.created,
      { inner with nextNotify := inner.nextNotify + 1 })

/-- The id of the subscriber and its backlog snapshot.  A finished room serves its
backlog and registers nobody. -/
def subscribe : Except QuicBrokerError (ℕ × List AgentTextStreamRecordV1) × BrokerStateInner :=
  let inner := inner.purgeExpiredRooms limits clock
  match inner.roomOrDefault limits clock key with
  | .error e => (.error e, inner)
  | .ok (room, inner) =>
    let id := inner.nextSubscriberId
    let (room, freed) :=
      (room.touch clock.active).purgeExpiredBacklog limits.replayTtl clock.backlog
    let backlog := room.backlog.map BacklogRecord.record
    (.ok (id, backlog),
      { inner.setRoom key (room.register id) with
        nextSubscriberId := id + 1
        totalBacklogBytes := inner.totalBacklogBytes - freed })

def unsubscribe (id : ℕ) (inner : BrokerStateInner) : BrokerStateInner :=
  let inner := inner.purgeExpiredRooms limits clock
  match inner.room? key with
  | none => inner
  | some room =>
    let room := ({ room with subscribers := room.subscribers.filter (· ≠ id) }).touch clock.active
    let inner := inner.setRoom key room
    if room.idle then inner.removeRoom key else inner

variable (record : AgentTextStreamRecordV1)

/-- The size of a record that is to be retained.  One that could never be is refused. -/
def retainedBytes : Except QuicBrokerError (Option ℕ) :=
  if limits.replayTtl = 0 then .ok none
  else
    match record.encodedLen with
    | .error e => .error (.record e)
    | .ok recordBytes =>
      if recordBytes > limits.maxBacklogBytes then
        .error (.backlogRecordTooLarge recordBytes limits.maxBacklogBytes)
      else .ok (some recordBytes)

/-- The beginning of `publish`: the size of the record, and the room of the key, a finished
one replaced by a new one. -/
def enterPublish (inner : BrokerStateInner) :
    Except QuicBrokerError (Option ℕ × BrokerRoom × BrokerStateInner) × BrokerStateInner :=
  match retainedBytes limits record with
  | .error e => (.error e, inner)
  | .ok recordBytes =>
    let inner := inner.purgeExpiredRooms limits clock
    let inner :=
      if (inner.room? key).any (·.finishedAt.isSome) then inner.removeRoom key else inner
    match inner.roomOrDefault limits clock key with
    | .error e => (.error e, inner)
    | .ok (room, inner) => (.ok (recordBytes, room, inner), inner)

/-- The backlog after a publication: the room, and the bytes of the broker. -/
def retain (recordBytes : Option ℕ) (room : BrokerRoom) (total : ℕ) : BrokerRoom × ℕ :=
  match recordBytes with
  | none => (room, total)
  | some recordBytes =>
    let (room, freed) := room.purgeExpiredBacklog limits.replayTtl clock.backlog
    let (backlog, bytes, total) := BrokerRoom.evictLoop limits
      (room.backlog ++ [⟨record, recordBytes, clock.last⟩]) (room.backlogBytes + recordBytes)
      (total - freed + recordBytes)
    ({ room with backlog := backlog, backlogBytes := bytes }, total)

/-- Publish a record: retain it, and put it into the queues that take it.  A subscriber
whose queue does not is dropped. -/
def publish (accepts : ℕ → Bool) (inner : BrokerStateInner) :
    Except QuicBrokerError ℕ × BrokerStateInner :=
  match enterPublish limits clock key record inner with
  | (.error e, inner) => (.error e, inner)
  | (.ok (recordBytes, room, inner), _) =>
    let room := { room with lastActivityAt := clock.active }
    let (room, total) := retain limits clock record recordBytes room inner.totalBacklogBytes
    let room := { room with subscribers := room.subscribers.filter accepts }
    let inner := { inner.setRoom key room with totalBacklogBytes := total }
    (.ok room.subscribers.length, if room.idle then inner.removeRoom key else inner)

/-- One turn of the loop of `wait_for_subscriber`: whether the room has a subscriber.  A
finished room is reset in place. -/
def pollSubscriber : Except QuicBrokerError Bool × BrokerStateInner :=
  let inner := inner.purgeExpiredRooms limits clock
  match inner.roomOrDefault limits clock key with
  | .error e => (.error e, inner)
  | .ok (room, inner) =>
    if room.finishedAt.isSome then
      (.ok false,
        { inner.setRoom key (.default inner.nextNotify clock.active) with
          nextNotify := inner.nextNotify + 1
          totalBacklogBytes := inner.totalBacklogBytes - room.backlogBytes })
    else (.ok !room.subscribers.isEmpty, inner.setRoom key room)

/-- What `wait_for_subscriber` does when its grace period is over. -/
def dropEmptyUnfinishedRoom : BrokerStateInner :=
  if (inner.room? key).any BrokerRoom.idle then inner.removeRoom key else inner

def dropRoom : BrokerStateInner :=
  inner.removeRoom key

/-- The part of `finish_room` under the lock. -/
def markRoomFinished : Bool × BrokerStateInner :=
  let inner := inner.purgeExpiredRooms limits clock
  match inner.room? key with
  | none => (false, inner)
  | some room =>
    let (room, freed) :=
      ({ room with subscribers := [] }).purgeExpiredBacklog limits.replayTtl clock.backlog
    let total := inner.totalBacklogBytes - freed
    if room.backlog.isEmpty then
      (false, ({ inner.setRoom key room with totalBacklogBytes := total }).removeRoom key)
    else
      (true,
        { inner.setRoom key
            { room with finishedAt := some clock.last, lastActivityAt := clock.last } with
          totalBacklogBytes := total })

def dropExpiredFinishedRoom : BrokerStateInner :=
  if (inner.room? key).any fun room =>
      room.finishedAt.any fun finishedAt => finishedRoomTtl ≤ clock.room key - finishedAt then
    inner.removeRoom key
  else inner

end BrokerStateInner

open BrokerRoom

/-! ### Fields of a room -/

section Fields

variable (room : BrokerRoom) (now : Instant) (id : ℕ)

@[simp] theorem BrokerRoom.touch_backlog : (room.touch now).backlog = room.backlog := by
  unfold touch
  split <;> rfl

@[simp] theorem BrokerRoom.touch_backlogBytes :
    (room.touch now).backlogBytes = room.backlogBytes := by
  unfold touch
  split <;> rfl

@[simp] theorem BrokerRoom.touch_subscribers :
    (room.touch now).subscribers = room.subscribers := by
  unfold touch
  split <;> rfl

@[simp] theorem BrokerRoom.touch_subscriberNotify :
    (room.touch now).subscriberNotify = room.subscriberNotify := by
  unfold touch
  split <;> rfl

@[simp] theorem BrokerRoom.register_backlog : (room.register id).backlog = room.backlog := by
  unfold register
  split <;> rfl

@[simp] theorem BrokerRoom.register_backlogBytes :
    (room.register id).backlogBytes = room.backlogBytes := by
  unfold register
  split <;> rfl

@[simp] theorem BrokerRoom.register_subscriberNotify :
    (room.register id).subscriberNotify = room.subscriberNotify := by
  unfold register
  split <;> rfl

end Fields

/-! ### The loops over the backlog -/

/-- The bytes of a list of backlog entries. -/
def backlogSum (backlog : List BacklogRecord) : ℕ := (backlog.map BacklogRecord.bytes).sum

@[simp] theorem backlogSum_nil : backlogSum [] = 0 := rfl

@[simp] theorem backlogSum_cons (entry : BacklogRecord) (backlog : List BacklogRecord) :
    backlogSum (entry :: backlog) = entry.bytes + backlogSum backlog := sum_cons

@[simp] theorem backlogSum_append (backlog backlog' : List BacklogRecord) :
    backlogSum (backlog ++ backlog') = backlogSum backlog + backlogSum backlog' := by
  rw [backlogSum, map_append, sum_append]
  rfl

namespace BrokerRoom

/-- The purge drops expired entries from the front and counts their bytes. -/
theorem purgeLoop_spec (replayTtl : ℕ) (clock : ℕ → Instant) (backlog : List BacklogRecord)
    (bytes freed : ℕ) :
    ∃ dropped kept, backlog = dropped ++ kept ∧
      purgeLoop replayTtl clock backlog bytes freed =
        (kept, bytes - backlogSum dropped, freed + backlogSum dropped) ∧
      ∀ entry, kept.head? = some entry →
        clock dropped.length - entry.appendedAt < replayTtl := by
  induction backlog generalizing clock bytes freed with
  | nil => exact ⟨[], [], rfl, rfl, fun _ h => by cases h⟩
  | cons front backlog ih =>
    by_cases hfresh : clock 0 - front.appendedAt < replayTtl
    · refine ⟨[], front :: backlog, rfl, by rw [purgeLoop, if_pos hfresh]; rfl, ?_⟩
      intro entry hentry
      rw [← Option.some.inj hentry]
      exact hfresh
    · obtain ⟨dropped, kept, hsplit, hloop, hhead⟩ :=
        ih (clock ∘ Nat.succ) (bytes - front.bytes) (freed + front.bytes)
      refine ⟨front :: dropped, kept, by rw [hsplit, cons_append], ?_, hhead⟩
      rw [purgeLoop, if_neg hfresh, hloop, backlogSum_cons, Nat.sub_sub, Nat.add_assoc]

theorem purgeExpiredBacklog_spec (room : BrokerRoom) (replayTtl : ℕ) (clock : ℕ → Instant) :
    ∃ dropped kept, room.backlog = dropped ++ kept ∧
      room.purgeExpiredBacklog replayTtl clock =
        ({ room with backlog := kept, backlogBytes := room.backlogBytes - backlogSum dropped },
          backlogSum dropped) ∧
      ∀ entry, kept.head? = some entry →
        clock dropped.length - entry.appendedAt < replayTtl := by
  obtain ⟨dropped, kept, hsplit, hloop, hhead⟩ :=
    purgeLoop_spec replayTtl clock room.backlog room.backlogBytes 0
  refine ⟨dropped, kept, hsplit, ?_, hhead⟩
  rw [purgeExpiredBacklog, hloop, Nat.zero_add]

/-- The eviction drops entries from the front until the limits hold, or none is left. -/
theorem evictLoop_spec (limits : BrokerLimits) (backlog : List BacklogRecord) (bytes total : ℕ) :
    ∃ dropped kept, backlog = dropped ++ kept ∧
      evictLoop limits backlog bytes total =
        (kept, bytes - backlogSum dropped, total - backlogSum dropped) ∧
      (kept = [] ∨ kept.length ≤ limits.maxBacklog ∧
        total - backlogSum dropped ≤ limits.maxBacklogBytes) := by
  induction backlog generalizing bytes total with
  | nil => exact ⟨[], [], rfl, rfl, .inl rfl⟩
  | cons front backlog ih =>
    by_cases hover : limits.maxBacklog < (front :: backlog).length ∨ limits.maxBacklogBytes < total
    · obtain ⟨dropped, kept, hsplit, hloop, hkept⟩ :=
        ih (bytes - front.bytes) (total - front.bytes)
      refine ⟨front :: dropped, kept, by rw [hsplit, cons_append], ?_, ?_⟩
      · rw [evictLoop, if_pos hover, hloop, backlogSum_cons, Nat.sub_sub, Nat.sub_sub]
      · rw [backlogSum_cons, ← Nat.sub_sub]
        exact hkept
    · refine ⟨[], front :: backlog, rfl, by rw [evictLoop, if_neg hover]; rfl, .inr ?_⟩
      rw [not_or, not_lt, not_lt] at hover
      exact hover

end BrokerRoom

/-! ### Accounting -/

/-- A room counts its bytes, keeps to the depth of the backlog, and retains nothing
without a replay window. -/
structure RoomAccounted (limits : BrokerLimits) (room : BrokerRoom) : Prop where
  bytes : room.backlogBytes = backlogSum room.backlog
  depth : room.backlog.length ≤ limits.maxBacklog
  window : limits.replayTtl = 0 → room.backlog = []

structure Accounted (limits : BrokerLimits) (inner : BrokerStateInner) : Prop where
  total : inner.totalBacklogBytes = (inner.rooms.rows.map fun entry => entry.2.backlogBytes).sum
  rooms : ∀ key room, inner.room? key = some room → RoomAccounted limits room
  bytes : inner.totalBacklogBytes ≤ limits.maxBacklogBytes
  count : inner.rooms.rows.length ≤ limits.maxRooms

/-- The bytes a key holds. -/
def BrokerStateInner.bytesOf (inner : BrokerStateInner) (key : BrokerStreamKey) : ℕ :=
  (inner.room? key).elim 0 BrokerRoom.backlogBytes

variable {limits : BrokerLimits} {inner inner' : BrokerStateInner} {key : BrokerStreamKey}
  {room : BrokerRoom} {clock : Readings}

open BrokerStateInner

theorem elim_get?_backlogBytes (inner : BrokerStateInner) :
    (inner.rooms.get? key).elim 0 (fun entry => entry.2.backlogBytes) = inner.bytesOf key := by
  rw [bytesOf, room?, Option.elim_map]
  rfl

theorem RoomAccounted.purge (h : RoomAccounted limits room) (clock : ℕ → Instant) :
    RoomAccounted limits (room.purgeExpiredBacklog limits.replayTtl clock).1 ∧
      (room.purgeExpiredBacklog limits.replayTtl clock).1.backlogBytes +
        (room.purgeExpiredBacklog limits.replayTtl clock).2 = room.backlogBytes := by
  obtain ⟨dropped, kept, hsplit, hpurge, _⟩ :=
    room.purgeExpiredBacklog_spec limits.replayTtl clock
  have hbytes := h.bytes
  have hdepth := h.depth
  rw [hsplit, backlogSum_append] at hbytes
  rw [hsplit, length_append] at hdepth
  rw [hpurge]
  refine ⟨⟨?_, ?_, ?_⟩, ?_⟩
  · dsimp only
    omega
  · exact le_trans (Nat.le_add_left _ _) hdepth
  · intro hzero
    have hnil := h.window hzero
    rw [hsplit] at hnil
    exact (append_eq_nil_iff.mp hnil).2
  · dsimp only
    omega

/-- A room written under its key, with the total moved by the change of its bytes. -/
theorem Accounted.set (h : Accounted limits inner)
    (hrooms : inner'.rooms = inner.rooms.upsert (key, room))
    (htotal : inner'.totalBacklogBytes + inner.bytesOf key =
      inner.totalBacklogBytes + room.backlogBytes)
    (hroom : RoomAccounted limits room)
    (hcount : inner.room? key = none → inner.rooms.rows.length < limits.maxRooms)
    (hbytes : inner'.totalBacklogBytes ≤ limits.maxBacklogBytes) : Accounted limits inner' := by
  refine ⟨?_, ?_, hbytes, ?_⟩
  · have hsum := inner.rooms.sum_upsert (key, room) fun entry => entry.2.backlogBytes
    rw [elim_get?_backlogBytes] at hsum
    rw [hrooms]
    have := h.total
    dsimp only at hsum
    omega
  · intro key' room' hget
    rw [room?, hrooms, KeyedTable.get?_upsert] at hget
    split at hget
    · rw [← Option.some.inj hget]
      exact hroom
    · exact h.rooms key' room' hget
  · rw [hrooms]
    cases hget : inner.rooms.get? key with
    | none =>
      have := hcount (by rw [room?, hget]; rfl)
      have := inner.rooms.length_upsert_le (key, room)
      omega
    | some entry =>
      rw [KeyedTable.length_rows_upsert_of_get?_some (b := entry) hget]
      exact h.count

theorem Accounted.remove (h : Accounted limits inner) :
    Accounted limits (inner.removeRoom key) := by
  unfold removeRoom
  split
  · rename_i room hroom
    have hsum := inner.rooms.sum_erase key fun entry => entry.2.backlogBytes
    rw [elim_get?_backlogBytes, bytesOf, hroom, Option.elim_some] at hsum
    have htotal := h.total
    refine ⟨?_, ?_, ?_, ?_⟩
    · dsimp only
      omega
    · intro key' room' hget
      rw [room?, KeyedTable.get?_erase] at hget
      split at hget
      · cases hget
      · exact h.rooms key' room' hget
    · exact le_trans (Nat.sub_le _ _) h.bytes
    · exact le_trans (inner.rooms.length_erase_le key) h.count
  · exact h

/-- A room after the purge of all rooms. -/
theorem room?_purgeExpiredRooms (inner : BrokerStateInner) :
    (inner.purgeExpiredRooms limits clock).room? key =
      (inner.room? key).bind fun room =>
        if retains (clock.room key) room then
          some (room.purgeExpiredBacklog limits.replayTtl (clock.purge key)).1
        else none := by
  rw [room?, purgeExpiredRooms, KeyedTable.get?_filterMapRows,
    room?]
  cases hget : inner.rooms.get? key with
  | none => rfl
  | some entry =>
    obtain rfl := KeyedTable.key_of_get? hget
    simp only [Option.bind_some, Option.map_some, purgeRoom]
    split <;> rfl

/-- The purge counts the bytes anew. -/
theorem Accounted.purge (h : Accounted limits inner) (clock : Readings) :
    Accounted limits (inner.purgeExpiredRooms limits clock) := by
  refine ⟨rfl, ?_, ?_, ?_⟩
  · intro key room hget
    rw [room?_purgeExpiredRooms] at hget
    obtain ⟨before, hbefore, hroom⟩ := Option.bind_eq_some_iff.mp hget
    split at hroom
    · rw [← Option.some.inj hroom]
      exact ((h.rooms key before hbefore).purge _).1
    · cases hroom
  · have hle := h.bytes
    rw [h.total] at hle
    refine le_trans (KeyedTable.sum_filterMapRows_le _ _
      (purgeRoom_key limits clock) _ ?_) hle
    intro entry entry' hentry
    unfold purgeRoom at hentry
    split at hentry
    · obtain ⟨_, _, _, hpurge, _⟩ :=
        entry.2.purgeExpiredBacklog_spec limits.replayTtl (clock.purge entry.1)
      rw [← Option.some.inj hentry, hpurge]
      exact Nat.sub_le _ _
    · cases hentry
  · exact le_trans (KeyedTable.length_filterMapRows_le _ _
      (purgeRoom_key limits clock)) h.count

theorem RoomAccounted.default (notify : ℕ) (now : Instant) :
    RoomAccounted limits (.default notify now) :=
  ⟨rfl, Nat.zero_le _, fun _ => rfl⟩

/-- The room an operation works on: the stored one, or a new one under the limit. -/
theorem roomOrDefault_ok (h : inner.roomOrDefault limits clock key = .ok (room, inner')) :
    inner'.rooms = inner.rooms ∧ inner'.totalBacklogBytes = inner.totalBacklogBytes ∧
      inner'.nextSubscriberId = inner.nextSubscriberId ∧
      (inner.room? key = some room ∧ inner'.nextNotify = inner.nextNotify ∨
        inner.room? key = none ∧ inner.rooms.rows.length < limits.maxRooms ∧
          room = .default inner.nextNotify clock.created ∧
            inner'.nextNotify = inner.nextNotify + 1) := by
  unfold roomOrDefault at h
  split at h
  · rename_i stored hget
    obtain ⟨rfl, rfl⟩ := Prod.mk.inj (Except.ok.inj h)
    exact ⟨rfl, rfl, rfl, .inl ⟨hget, rfl⟩⟩
  · rename_i hget
    split at h
    · cases h
    · rename_i hroom
      obtain ⟨rfl, rfl⟩ := Prod.mk.inj (Except.ok.inj h)
      exact ⟨rfl, rfl, rfl, .inr ⟨hget, not_le.mp hroom, rfl, rfl⟩⟩

/-- The room an operation works on is accounted for, and may be written back. -/
structure Entered (limits : BrokerLimits) (key : BrokerStreamKey) (inner : BrokerStateInner)
    (room : BrokerRoom) : Prop where
  accounted : Accounted limits inner
  entered : RoomAccounted limits room
  bytes : inner.bytesOf key = room.backlogBytes
  count : inner.room? key = none → inner.rooms.rows.length < limits.maxRooms

theorem Accounted.congr (h : Accounted limits inner) (hrooms : inner'.rooms = inner.rooms)
    (htotal : inner'.totalBacklogBytes = inner.totalBacklogBytes) : Accounted limits inner' := by
  refine ⟨by rw [htotal, hrooms]; exact h.total, ?_, htotal ▸ h.bytes, hrooms ▸ h.count⟩
  intro key room hget
  rw [room?, hrooms] at hget
  exact h.rooms key room hget

theorem Accounted.enter (h : Accounted limits inner)
    (hroom : inner.roomOrDefault limits clock key = .ok (room, inner')) :
    Entered limits key inner' room := by
  obtain ⟨hrooms, htotal, _, hcases⟩ := roomOrDefault_ok hroom
  have hsame : inner'.room? key = inner.room? key := by
    rw [room?, hrooms, room?]
  have haccounted := h.congr hrooms htotal
  rcases hcases with ⟨hget, _⟩ | ⟨hget, hcount, rfl, _⟩
  · refine ⟨haccounted, h.rooms key room hget, ?_, ?_⟩
    · rw [bytesOf, hsame, hget, Option.elim_some]
    · intro hnone
      rw [hsame, hget] at hnone
      cases hnone
  · refine ⟨haccounted, .default _ _, ?_, fun _ => hrooms ▸ hcount⟩
    rw [bytesOf, hsame, hget]
    rfl

/-- A room that was entered, written back with other bytes. -/
theorem Entered.set (h : Entered limits key inner room) (room' : BrokerRoom)
    (hrooms : inner'.rooms = inner.rooms.upsert (key, room'))
    (hroom : RoomAccounted limits room')
    (htotal : inner'.totalBacklogBytes + room.backlogBytes =
      inner.totalBacklogBytes + room'.backlogBytes)
    (hbytes : inner'.totalBacklogBytes ≤ limits.maxBacklogBytes) : Accounted limits inner' :=
  h.accounted.set hrooms (h.bytes ▸ htotal) hroom h.count hbytes

/-- A room's bytes are part of the total. -/
theorem Entered.bytes_le (h : Entered limits key inner room) :
    room.backlogBytes ≤ inner.totalBacklogBytes := by
  have hsum := inner.rooms.sum_erase key fun entry => entry.2.backlogBytes
  rw [elim_get?_backlogBytes, h.bytes] at hsum
  rw [h.accounted.total]
  omega

/-! ### The operations -/

theorem RoomAccounted.congr {room' : BrokerRoom} (h : RoomAccounted limits room)
    (hbacklog : room'.backlog = room.backlog) (hbytes : room'.backlogBytes = room.backlogBytes) :
    RoomAccounted limits room' :=
  ⟨by rw [hbytes, hbacklog]; exact h.bytes, hbacklog ▸ h.depth, hbacklog ▸ h.window⟩

/-- Retaining a record moves the total by the change of the room's bytes, and keeps it
under the limit: at worst the record itself is evicted. -/
theorem RoomAccounted.retain (h : RoomAccounted limits room) {total : ℕ}
    {recordBytes : Option ℕ} (hwindow : recordBytes ≠ none → limits.replayTtl ≠ 0)
    (htotal : room.backlogBytes ≤ total) (hlimit : total ≤ limits.maxBacklogBytes)
    (clock : Readings) (record : AgentTextStreamRecordV1) :
    RoomAccounted limits
        (BrokerStateInner.retain limits clock record recordBytes room total).1 ∧
      (BrokerStateInner.retain limits clock record recordBytes room total).2 + room.backlogBytes =
        total +
          (BrokerStateInner.retain limits clock record recordBytes room total).1.backlogBytes ∧
      (BrokerStateInner.retain limits clock record recordBytes room total).2 ≤
        limits.maxBacklogBytes := by
  cases recordBytes with
  | none => exact ⟨h, rfl, hlimit⟩
  | some b =>
    obtain ⟨hpurged, hfreed⟩ := h.purge clock.backlog
    simp only [BrokerStateInner.retain]
    generalize room.purgeExpiredBacklog limits.replayTtl clock.backlog = purged
      at hpurged hfreed ⊢
    obtain ⟨dropped, kept, hsplit, hloop, hkept⟩ := BrokerRoom.evictLoop_spec limits
      (purged.1.backlog ++ [⟨record, b, clock.last⟩]) (purged.1.backlogBytes + b)
      (total - purged.2 + b)
    have hsum := congrArg backlogSum hsplit
    rw [backlogSum_append, backlogSum_append, backlogSum_cons, backlogSum_nil] at hsum
    have hbytes := hpurged.bytes
    rw [hloop]
    dsimp only at hsum ⊢
    refine ⟨⟨?_, ?_, ?_⟩, ?_, ?_⟩
    · dsimp only
      omega
    · rcases hkept with rfl | ⟨hdepth, _⟩
      · exact Nat.zero_le _
      · exact hdepth
    · exact fun hzero => absurd hzero (hwindow (Option.some_ne_none b))
    · omega
    · rcases hkept with rfl | ⟨_, hle⟩
      · rw [backlogSum_nil] at hsum
        omega
      · exact hle

namespace BrokerStateInner

theorem subscribe_accounted (h : Accounted limits inner) (clock : Readings)
    (key : BrokerStreamKey) : Accounted limits (inner.subscribe limits clock key).2 := by
  have hpurged := h.purge clock
  unfold subscribe
  dsimp only
  split
  · exact hpurged
  · rename_i room entered hroom
    have henter := hpurged.enter hroom
    have htouched : RoomAccounted limits (room.touch clock.active) :=
      henter.entered.congr (room.touch_backlog _) (room.touch_backlogBytes _)
    obtain ⟨hroom', hfreed⟩ := htouched.purge clock.backlog
    rw [room.touch_backlogBytes] at hfreed
    have hle := henter.bytes_le
    have hlimit := henter.accounted.bytes
    generalize (room.touch clock.active).purgeExpiredBacklog limits.replayTtl clock.backlog =
      purged at hroom' hfreed
    refine henter.set (purged.1.register entered.nextSubscriberId) rfl
      (hroom'.congr (purged.1.register_backlog _) (purged.1.register_backlogBytes _)) ?_ ?_
    · rw [register_backlogBytes]
      dsimp only
      omega
    · dsimp only
      omega

/-- A room that is stored may be entered. -/
theorem entered_of_room? (h : Accounted limits inner) (hroom : inner.room? key = some room) :
    Entered limits key inner room := by
  refine ⟨h, h.rooms key room hroom, ?_, ?_⟩
  · rw [bytesOf, hroom, Option.elim_some]
  · intro hnone
    rw [hroom] at hnone
    cases hnone

/-- A stored room rewritten with the same backlog. -/
theorem setRoom_accounted (h : Accounted limits inner) (hroom : inner.room? key = some room)
    (room' : BrokerRoom) (hbacklog : room'.backlog = room.backlog)
    (hbytes : room'.backlogBytes = room.backlogBytes) :
    Accounted limits (inner.setRoom key room') := by
  have henter := entered_of_room? h hroom
  refine henter.set room' rfl (henter.entered.congr hbacklog hbytes) ?_ h.bytes
  rw [hbytes]
  rfl

theorem unsubscribe_accounted (h : Accounted limits inner) (clock : Readings)
    (key : BrokerStreamKey) (id : ℕ) :
    Accounted limits (inner.unsubscribe limits clock key id) := by
  have hpurged := h.purge clock
  unfold unsubscribe
  dsimp only
  split
  · exact hpurged
  · rename_i room hroom
    have hset := setRoom_accounted hpurged hroom
      (({ room with subscribers := room.subscribers.filter (· ≠ id) }).touch clock.active)
      (touch_backlog _ _) (touch_backlogBytes _ _)
    split
    · exact hset.remove
    · exact hset

variable {record : AgentTextStreamRecordV1}

/-- What a publication works on. -/
theorem enterPublish_accounted (h : Accounted limits inner) :
    Accounted limits (enterPublish limits clock key record inner).2 ∧
      ∀ recordBytes room inner',
        (enterPublish limits clock key record inner).1 = .ok (recordBytes, room, inner') →
        Entered limits key inner' room ∧ (recordBytes ≠ none → limits.replayTtl ≠ 0) := by
  have hpurged := h.purge clock
  have hremoved : Accounted limits
      (if ((inner.purgeExpiredRooms limits clock).room? key).any (·.finishedAt.isSome) then
        (inner.purgeExpiredRooms limits clock).removeRoom key
      else inner.purgeExpiredRooms limits clock) := by
    split
    · exact hpurged.remove
    · exact hpurged
  unfold enterPublish
  dsimp only
  cases hsize : retainedBytes limits record with
  | error e =>
    refine ⟨h, ?_⟩
    intro recordBytes room inner' heq
    cases heq
  | ok size =>
    have hwindow : size ≠ none → limits.replayTtl ≠ 0 := by
      intro hsome hzero
      rw [retainedBytes, if_pos hzero] at hsize
      exact hsome (Except.ok.inj hsize).symm
    dsimp only
    split
    · refine ⟨hremoved, ?_⟩
      intro recordBytes room inner' heq
      cases heq
    · rename_i room entered hroom
      have henter := hremoved.enter hroom
      refine ⟨henter.accounted, ?_⟩
      intro recordBytes room' inner' heq
      cases heq
      exact ⟨henter, hwindow⟩

theorem publish_accounted (h : Accounted limits inner) (accepts : ℕ → Bool) :
    Accounted limits (inner.publish limits clock key record accepts).2 := by
  obtain ⟨herror, hok⟩ := enterPublish_accounted h
  unfold publish
  split
  · rename_i e inner' heq
    rw [heq] at herror
    exact herror
  · rename_i recordBytes room entered inner' heq
    obtain ⟨henter, hwindow⟩ := hok recordBytes room entered (by rw [heq])
    have hactive : RoomAccounted limits { room with lastActivityAt := clock.active } :=
      henter.entered.congr rfl rfl
    obtain ⟨hroom', htotal, hlimit⟩ :=
      hactive.retain hwindow henter.bytes_le henter.accounted.bytes clock record
    dsimp only at htotal ⊢
    generalize retain limits clock record recordBytes { room with lastActivityAt := clock.active }
      entered.totalBacklogBytes = retained at hroom' htotal hlimit
    have hset : Accounted limits
        { entered.setRoom key
            { retained.1 with subscribers := retained.1.subscribers.filter accepts } with
          totalBacklogBytes := retained.2 } :=
      henter.set _ rfl (hroom'.congr rfl rfl) htotal hlimit
    split
    · exact hset.remove
    · exact hset

theorem pollSubscriber_accounted (h : Accounted limits inner) (clock : Readings)
    (key : BrokerStreamKey) : Accounted limits (inner.pollSubscriber limits clock key).2 := by
  have hpurged := h.purge clock
  unfold pollSubscriber
  dsimp only
  split
  · exact hpurged
  · rename_i room entered hroom
    have henter := hpurged.enter hroom
    have hle := henter.bytes_le
    have hlimit := henter.accounted.bytes
    split
    · -- The reset room gives up its bytes.
      refine henter.set (.default entered.nextNotify clock.active) rfl (.default _ _) ?_ ?_
      · dsimp only [BrokerRoom.default]
        omega
      · dsimp only
        omega
    · exact henter.set room rfl henter.entered rfl hlimit

theorem dropEmptyUnfinishedRoom_accounted (h : Accounted limits inner) :
    Accounted limits (inner.dropEmptyUnfinishedRoom key) := by
  unfold dropEmptyUnfinishedRoom
  split
  · exact h.remove
  · exact h

theorem markRoomFinished_accounted (h : Accounted limits inner) (clock : Readings)
    (key : BrokerStreamKey) : Accounted limits (inner.markRoomFinished limits clock key).2 := by
  have hpurged := h.purge clock
  unfold markRoomFinished
  dsimp only
  split
  · exact hpurged
  · rename_i room hroom
    have henter := entered_of_room? hpurged hroom
    have hcleared : RoomAccounted limits { room with subscribers := [] } :=
      henter.entered.congr rfl rfl
    obtain ⟨hroom', hfreed⟩ := hcleared.purge clock.backlog
    have hle := henter.bytes_le
    have hlimit := henter.accounted.bytes
    dsimp only at hfreed
    generalize ({ room with subscribers := [] } : BrokerRoom).purgeExpiredBacklog limits.replayTtl
      clock.backlog = purged at hroom' hfreed
    split
    · refine Accounted.remove (henter.set purged.1 rfl hroom' ?_ ?_)
      · dsimp only
        omega
      · dsimp only
        omega
    · refine henter.set
        { purged.1 with finishedAt := some clock.last, lastActivityAt := clock.last } rfl
        (hroom'.congr rfl rfl) ?_ ?_
      · dsimp only
        omega
      · dsimp only
        omega

theorem dropExpiredFinishedRoom_accounted (h : Accounted limits inner) :
    Accounted limits (inner.dropExpiredFinishedRoom clock key) := by
  unfold dropExpiredFinishedRoom
  split
  · exact h.remove
  · exact h

end BrokerStateInner

/-! ### Runs -/

/-- An operation of the broker under its lock.  A publication is given which queues take
its record. -/
inductive BrokerOp where
  | subscribe (key : BrokerStreamKey)
  | unsubscribe (key : BrokerStreamKey) (id : ℕ)
  | publish (key : BrokerStreamKey) (record : AgentTextStreamRecordV1) (accepts : ℕ → Bool)
  | pollSubscriber (key : BrokerStreamKey)
  | dropEmptyUnfinishedRoom (key : BrokerStreamKey)
  | dropRoom (key : BrokerStreamKey)
  | markRoomFinished (key : BrokerStreamKey)
  | dropExpiredFinishedRoom (key : BrokerStreamKey)
  | purge

def BrokerOp.apply (limits : BrokerLimits) (clock : Readings) (inner : BrokerStateInner) :
    BrokerOp → BrokerStateInner
  | .subscribe key => (inner.subscribe limits clock key).2
  | .unsubscribe key id => inner.unsubscribe limits clock key id
  | .publish key record accepts => (inner.publish limits clock key record accepts).2
  | .pollSubscriber key => (inner.pollSubscriber limits clock key).2
  | .dropEmptyUnfinishedRoom key => inner.dropEmptyUnfinishedRoom key
  | .dropRoom key => inner.dropRoom key
  | .markRoomFinished key => (inner.markRoomFinished limits clock key).2
  | .dropExpiredFinishedRoom key => inner.dropExpiredFinishedRoom clock key
  | .purge => inner.purgeExpiredRooms limits clock

theorem BrokerOp.apply_accounted (h : Accounted limits inner) (op : BrokerOp) :
    Accounted limits (op.apply limits clock inner) := by
  cases op with
  | subscribe key => exact subscribe_accounted h clock key
  | unsubscribe key id => exact unsubscribe_accounted h clock key id
  | publish key record accepts =>
    exact publish_accounted h accepts
  | pollSubscriber key => exact pollSubscriber_accounted h clock key
  | dropEmptyUnfinishedRoom key =>
    exact dropEmptyUnfinishedRoom_accounted h
  | dropRoom key => exact h.remove
  | markRoomFinished key => exact markRoomFinished_accounted h clock key
  | dropExpiredFinishedRoom key =>
    exact dropExpiredFinishedRoom_accounted h
  | purge => exact h.purge clock

/-- The broker after a sequence of operations, each with what it reads of the clock. -/
def brokerRun (limits : BrokerLimits) (ops : List (Readings × BrokerOp)) : BrokerStateInner :=
  ops.foldl (fun inner op => op.2.apply limits op.1 inner) .empty

theorem accounted_run (limits : BrokerLimits) (ops : List (Readings × BrokerOp)) :
    Accounted limits (brokerRun limits ops) := by
  induction ops using reverseRecOn with
  | nil =>
    refine ⟨rfl, ?_, Nat.zero_le _, Nat.zero_le _⟩
    intro key room hget
    cases hget
  | append_singleton ops op ih =>
    rw [brokerRun, foldl_concat]
    exact BrokerOp.apply_accounted ih op.2

/-- After every sequence of operations, at any clock readings and with any limits: the
total is the sum over the rooms, a room's bytes are those of its backlog, and the limits on
bytes, backlog and rooms hold; without a replay window nothing is retained. -/
theorem broker_accounting (limits : BrokerLimits) (ops : List (Readings × BrokerOp)) :
    (brokerRun limits ops).totalBacklogBytes =
      ((brokerRun limits ops).rooms.rows.map fun entry => entry.2.backlogBytes).sum ∧
    (brokerRun limits ops).totalBacklogBytes ≤ limits.maxBacklogBytes ∧
    (brokerRun limits ops).rooms.rows.length ≤ limits.maxRooms ∧
    ∀ entry ∈ (brokerRun limits ops).rooms.rows,
      entry.2.backlogBytes = (entry.2.backlog.map BacklogRecord.bytes).sum ∧
      entry.2.backlog.length ≤ limits.maxBacklog ∧
      (limits.replayTtl = 0 → entry.2.backlog = []) := by
  have h := accounted_run limits ops
  refine ⟨h.total, h.bytes, h.count, ?_⟩
  intro entry hentry
  have hget : (brokerRun limits ops).room? entry.1 = some entry.2 := by
    rw [room?, KeyedTable.mem_rows_iff.mp hentry, Option.map_some]
  have hroom := h.rooms entry.1 entry.2 hget
  exact ⟨hroom.bytes, hroom.depth, hroom.window⟩

end Mdk
