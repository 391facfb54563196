/-
The durable queue of outbound intents.

A send that cannot be published yet is stored as a row of the queue and answered with
`Queued`.  The id of the row is a hash of the group, the identity of the engine, the
clock reading, the number of rows the group has queued, and the serialized intent; the
row is written as an upsert under that id, and deleted once its publication is
confirmed.

`QueueLedger` runs the calls beside a list of what was accepted and not deleted since.

* **`queuedIntentId_injective`** — two rows have one id only if they agree in group,
  clock reading, queue length and intent bytes;
* **`queued_adds_row_iff`** — an accepted intent gets a row of its own exactly if no
  retained one agrees with it in these four;
* **`retained_intents_exact`** — where that is so at every call, the rows of a group
  are the intents accepted and not yet deleted, in the order of acceptance.

Deleting a row makes the queue shorter, so that the next length has been used before:
`requeued_intent_replaces` is a run in which an accepted intent overwrites another.
-/
import Mdk.Bytes
import Mdk.Checks
import Mdk.KeyedTable
import Mdk.Replay

namespace Mdk.OutboundQueue

open List

abbrev MessageId := List UInt8

/-- `MAX_QUEUED_OUTBOUND_INTENTS_PER_GROUP`. -/
def maxQueuedOutboundIntentsPerGroup : ℕ := 256

structure QueuedIntent (I : Type) where
  id : MessageId
  groupId : GroupId
  intent : I
  createdAtMs : UInt64
  reissueAttempts : UInt32
deriving DecidableEq, Repr

inductive QueueError where
  | queuedOutboundAtCapacity (groupId : GroupId)
  | serialize (reason : String)
  | storage (error : StorageError)

inductive SendResult where
  | queued (groupId : GroupId) (intentId : MessageId)
deriving DecidableEq, Repr

/-- What the queue is given: the identity of the engine, `serde_json::to_vec` of a
`SendIntent`, and SHA-256.

Every variant of a `SendIntent` has fields, so that its JSON is an object with the name
of the variant as its key; control characters are escaped in JSON. -/
structure QueueEnv (I : Type) where
  selfId : List UInt8
  toVec : I → Except String (List UInt8)
  toVec_opens : ∀ intent bytes, toVec intent = .ok bytes → ∃ rest, bytes = 0x7b :: 0x22 :: rest
  toVec_noNul : ∀ intent bytes, toVec intent = .ok bytes → 0 ∉ bytes
  sha256 : List UInt8 → MessageId
  sha256_injective : Function.Injective sha256

variable {I : Type}

/-- The rows of `cgka_queued_outbound` in `insert_order`, and the engine's memory that
`queueOutboundIntent` reads and writes. -/
structure QueueEngine (I : Type) where
  queued : KeyedTable (QueuedIntent.id (I := I))
  stable : GroupId → Bool
  pendingConvergenceGroups : List GroupId

/-- The storage errors a call meets, if any. -/
structure StorageFaults where
  list : Option StorageError := none
  put : Option StorageError := none

namespace QueueEngine

def rowsOf (engine : QueueEngine I) (groupId : GroupId) : List (QueuedIntent I) :=
  engine.queued.rows.filter fun row => row.groupId = groupId

def listQueuedOutboundIntents (engine : QueueEngine I) (fault : Option StorageError)
    (groupId : GroupId) : Except StorageError (List (QueuedIntent I)) :=
  match fault with
  | some error => .error error
  | none => .ok (engine.rowsOf groupId)

/-- `created_at_to_i64`. -/
def createdAtToI64 (createdAtMs : UInt64) : Except StorageError ℕ :=
  if createdAtMs.toNat < 2 ^ 63 then .ok createdAtMs.toNat
  else .error (.other "created_at_ms too large")

/-- The upsert under the row's id.  The transaction around it also releases the draft
that was submitted, and leaves the row out if that fails. -/
def putQueuedOutboundIntent (engine : QueueEngine I) (fault : Option StorageError)
    (record : QueuedIntent I) : Except StorageError (QueueEngine I) := do
  let _ ← createdAtToI64 record.createdAtMs
  match fault with
  | some error => .error error
  | none => .ok { engine with queued := engine.queued.upsert record }

def deleteQueuedOutboundIntent (engine : QueueEngine I) (fault : Option StorageError)
    (id : MessageId) : Except StorageError (QueueEngine I) :=
  match fault with
  | some error => .error error
  | none =>
    match engine.queued.get? id with
    | some _ => .ok { engine with queued := engine.queued.erase id }
    | none => .error (.other "NotFound")

def schedulePendingConvergenceGroup (engine : QueueEngine I) (groupId : GroupId) :
    QueueEngine I :=
  { engine with
    pendingConvergenceGroups :=
      if groupId ∈ engine.pendingConvergenceGroups then engine.pendingConvergenceGroups
      else engine.pendingConvergenceGroups ++ [groupId] }

end QueueEngine

/-- The domain tag `marmot-queued-outbound-intent/v1`. -/
def queuedIntentTag : List UInt8 := asciiBytes "marmot-queued-outbound-intent/v1"

/-- The bytes hashed into the id of a row. -/
def queuedIntentInput (env : QueueEnv I) (groupId : GroupId) (createdAtMs : UInt64)
    (existingCount : ℕ) (intentBytes : List UInt8) : List UInt8 :=
  queuedIntentTag ++ (groupId ++ (env.selfId ++
    (beBytes 8 createdAtMs.toNat ++ (beBytes 8 existingCount ++ intentBytes))))

def queuedIntentId (env : QueueEnv I) (groupId : GroupId) (createdAtMs : UInt64)
    (existingCount : ℕ) (intentBytes : List UInt8) : MessageId :=
  env.sha256 (queuedIntentInput env groupId createdAtMs existingCount intentBytes)

def prepareQueuedOutboundIntent (env : QueueEnv I) (engine : QueueEngine I)
    (fault : Option StorageError) (createdAtMs : UInt64) (groupId : GroupId) (intent : I)
    (reissueAttempts : UInt32) : Except QueueError (QueuedIntent I) := do
  let existing ← (engine.listQueuedOutboundIntents fault groupId).mapError .storage
  let existingCount := existing.length
  if existingCount ≥ maxQueuedOutboundIntentsPerGroup then
    .error (.queuedOutboundAtCapacity groupId)
  else
    let intentBytes ← (env.toVec intent).mapError .serialize
    .ok ⟨queuedIntentId env groupId createdAtMs existingCount intentBytes, groupId, intent,
      createdAtMs, reissueAttempts⟩

/-- Store the intent, and arm the drain of a stable group. -/
def queueOutboundIntent (env : QueueEnv I) (engine : QueueEngine I) (faults : StorageFaults)
    (nowMs : UInt64) (groupId : GroupId) (intent : I) (reissueAttempts : UInt32) :
    Except QueueError (SendResult × QueueEngine I) := do
  let record ←
    prepareQueuedOutboundIntent env engine faults.list nowMs groupId intent reissueAttempts
  let engine ← (engine.putQueuedOutboundIntent faults.put record).mapError .storage
  let engine :=
    if engine.stable groupId then engine.schedulePendingConvergenceGroup groupId else engine
  .ok (.queued groupId record.id, engine)

/-! ### The id of a row -/

section Ids

variable {env : QueueEnv I}

/-- The bytes of a length below the capacity end with a zero byte and the length. -/
theorem suffix_beBytes {n : ℕ} (h : n < maxQueuedOutboundIntentsPerGroup) :
    [0, UInt8.ofNat n] <:+ beBytes 8 n := by
  have hdiv : n / 256 = 0 := Nat.div_eq_of_lt h
  rw [beBytes, beBytes, hdiv]
  refine ⟨beBytes 6 0, ?_⟩
  rw [Nat.zero_div, append_assoc]
  rfl

/-- Bytes in front of the identity of one of two inputs cannot be made up for by the
intent of the other: the JSON text would have to begin inside a queue length. -/
theorem length_le_zero_of_shifted {self stamp stamp' bytes bytes' x : List UInt8} {n n' : ℕ}
    {intent intent' : I} (hstamp : stamp.length = stamp'.length)
    (hn' : n' < maxQueuedOutboundIntentsPerGroup)
    (hbytes : env.toVec intent = .ok bytes) (hbytes' : env.toVec intent' = .ok bytes')
    (h : self ++ (stamp ++ (beBytes 8 n ++ bytes)) =
      x ++ (self ++ (stamp' ++ (beBytes 8 n' ++ bytes')))) : x = [] := by
  -- The intent of the first input starts with the last `x.length` bytes before the second.
  have hsplit : (self ++ stamp ++ beBytes 8 n) ++ bytes =
      (x ++ self ++ stamp' ++ beBytes 8 n') ++ bytes' := by
    simpa only [append_assoc] using h
  have hlen : (self ++ stamp ++ beBytes 8 n).length ≤
      (x ++ self ++ stamp' ++ beBytes 8 n').length := by
    simp only [length_append, length_beBytes, hstamp]
    omega
  obtain ⟨y, hy⟩ := prefix_of_prefix_length_le (prefix_append _ bytes)
    (hsplit ▸ prefix_append _ bytes') hlen
  have hb : bytes = y ++ bytes' := by
    rw [← hy, append_assoc _ y] at hsplit
    exact append_cancel_left hsplit
  have hxy : x.length = y.length := by
    have hlen := congrArg length hy
    simp only [length_append, length_beBytes, hstamp] at hlen
    omega
  have hsuffix : y <:+ x ++ self ++ stamp' ++ beBytes 8 n' := ⟨_, hy⟩
  have hcount : [0, UInt8.ofNat n'] <:+ x ++ self ++ stamp' ++ beBytes 8 n' :=
    (suffix_beBytes hn').trans (suffix_append _ _)
  rcases Nat.lt_or_ge y.length 2 with hlt | hge
  · match y, hlt with
    | [], _ => exact eq_nil_of_length_eq_zero hxy
    | [b], _ =>
      -- One byte: the second text would begin with the second byte of the first.
      obtain ⟨rest, hopen⟩ := env.toVec_opens intent bytes hbytes
      obtain ⟨rest', hopen'⟩ := env.toVec_opens intent' bytes' hbytes'
      rw [hopen, hopen'] at hb
      injection hb with _ hb
      injection hb with hb _
      exact absurd hb (by decide)
  · -- Two or more: the zero byte of the queue length would lie in the JSON text.
    have hzero : [0, UInt8.ofNat n'] <:+ y :=
      suffix_of_suffix_length_le hcount hsuffix hge
    have hmem : (0 : UInt8) ∈ bytes := by
      rw [hb]
      exact mem_append_left _ (hzero.subset mem_cons_self)
    exact absurd hmem (env.toVec_noNul intent bytes hbytes)

/-- A row's id determines what it was computed from. -/
theorem queuedIntentId_injective {g g' : GroupId} {t t' : UInt64} {n n' : ℕ}
    {bytes bytes' : List UInt8} {intent intent' : I}
    (hn : n < maxQueuedOutboundIntentsPerGroup) (hn' : n' < maxQueuedOutboundIntentsPerGroup)
    (hbytes : env.toVec intent = .ok bytes) (hbytes' : env.toVec intent' = .ok bytes')
    (h : queuedIntentId env g t n bytes = queuedIntentId env g' t' n' bytes') :
    g = g' ∧ t = t' ∧ n = n' ∧ bytes = bytes' := by
  have hinput := append_cancel_left (env.sha256_injective h)
  have hgroup : g = g' := by
    rcases append_eq_append_iff.mp hinput with ⟨x, hx, hrest⟩ | ⟨x, hx, hrest⟩
    · have hnil := length_le_zero_of_shifted (by simp) hn' hbytes hbytes' hrest
      rw [hx, hnil, append_nil]
    · have hnil := length_le_zero_of_shifted (by simp) hn hbytes' hbytes hrest
      rw [hx, hnil, append_nil]
  subst hgroup
  have htail := append_cancel_left (append_cancel_left hinput)
  obtain ⟨hstamp, htail⟩ := append_inj htail (by simp)
  obtain ⟨hcount, htail⟩ := append_inj htail (by simp)
  have hmax : maxQueuedOutboundIntentsPerGroup < 256 ^ 8 := by decide
  refine ⟨rfl, ?_, beBytes_injective (by omega) (by omega) hcount, htail⟩
  rw [← UInt64.toNat_inj]
  exact beBytes_injective t.toNat_lt t'.toNat_lt hstamp

end Ids

/-! ### Runs -/

/-- An accepted intent: the row it was promised, and how many rows its group had. -/
structure Acceptance (I : Type) where
  row : QueuedIntent I
  queueLength : ℕ

inductive QueueCall (I : Type) where
  | queue (faults : StorageFaults) (nowMs : UInt64) (groupId : GroupId) (intent : I)
      (reissueAttempts : UInt32)
  | delete (fault : Option StorageError) (id : MessageId)

/-- The engine, and the intents it has accepted and not deleted, oldest first. -/
structure QueueLedger (I : Type) where
  engine : QueueEngine I
  retained : List (Acceptance I)

namespace QueueLedger

variable {env : QueueEnv I}

/-- One call.  The ledger takes the answer of the call at its word: after `Queued` the
intent is retained, after a deletion it no longer is. -/
def call (env : QueueEnv I) (s : QueueLedger I) : QueueCall I → QueueLedger I
  | .queue faults nowMs groupId intent reissueAttempts =>
    match queueOutboundIntent env s.engine faults nowMs groupId intent reissueAttempts with
    | .ok (.queued groupId id, engine) =>
      ⟨engine, s.retained ++ [⟨⟨id, groupId, intent, nowMs, reissueAttempts⟩,
        (s.engine.rowsOf groupId).length⟩]⟩
    | .error _ => s
  | .delete fault id =>
    match s.engine.deleteQueuedOutboundIntent fault id with
    | .ok engine => ⟨engine, s.retained.filter fun a => a.row.id ≠ id⟩
    | .error _ => s

/-- An engine with an empty queue. -/
def start (stable : GroupId → Bool) : QueueLedger I := ⟨⟨.empty, stable, []⟩, []⟩

def run (env : QueueEnv I) (stable : GroupId → Bool) (calls : List (QueueCall I)) :
    QueueLedger I :=
  calls.foldl (call env) (start stable)

def retainedOf (s : QueueLedger I) (groupId : GroupId) : List (QueuedIntent I) :=
  (s.retained.map Acceptance.row).filter fun row => row.groupId = groupId

/-- No retained intent of the group was accepted at this clock reading and at the
present queue length with the same serialized form. -/
def Distinguished (env : QueueEnv I) (s : QueueLedger I) (nowMs : UInt64) (groupId : GroupId)
    (intent : I) : Prop :=
  ∀ a ∈ s.retained, a.row.groupId = groupId → a.row.createdAtMs = nowMs →
    a.queueLength = (s.engine.rowsOf groupId).length → env.toVec a.row.intent ≠ env.toVec intent

/-- The calls are distinguished where they queue an intent. -/
def CallDistinguished (env : QueueEnv I) (s : QueueLedger I) : QueueCall I → Prop
  | .queue _ nowMs groupId intent _ => s.Distinguished env nowMs groupId intent
  | .delete _ _ => True

/-- The stored rows are those of the retained intents, each with the id computed for it. -/
structure Exact (env : QueueEnv I) (s : QueueLedger I) : Prop where
  rows : s.engine.queued.rows = s.retained.map Acceptance.row
  ids : ∀ a ∈ s.retained, ∃ bytes, env.toVec a.row.intent = .ok bytes ∧
    a.queueLength < maxQueuedOutboundIntentsPerGroup ∧
    a.row.id = queuedIntentId env a.row.groupId a.row.createdAtMs a.queueLength bytes
  bounded : ∀ groupId, (s.engine.rowsOf groupId).length ≤ maxQueuedOutboundIntentsPerGroup

end QueueLedger

variable {fault : Option StorageError}

/-- What a prepared row is made of. -/
theorem prepareQueuedOutboundIntent_ok {env : QueueEnv I} {engine : QueueEngine I} {nowMs : UInt64}
    {groupId : GroupId} {intent : I} {n : UInt32} {row : QueuedIntent I}
    (h : prepareQueuedOutboundIntent env engine fault nowMs groupId intent n = .ok row) :
    ∃ bytes, env.toVec intent = .ok bytes ∧
      (engine.rowsOf groupId).length < maxQueuedOutboundIntentsPerGroup ∧
      row = ⟨queuedIntentId env groupId nowMs (engine.rowsOf groupId).length bytes, groupId,
        intent, nowMs, n⟩ := by
  cases fault with
  | some error =>
    simp only [prepareQueuedOutboundIntent, QueueEngine.listQueuedOutboundIntents] at h
    cases h
  | none =>
    simp only [prepareQueuedOutboundIntent, QueueEngine.listQueuedOutboundIntents,
      Checks.bind_eq_ok, Checks.mapError_eq_ok, Except.ok.injEq, exists_eq_left'] at h
    split at h
    · cases h
    rename_i hroom
    obtain ⟨bytes, hbytes, hrow⟩ := Checks.bind_eq_ok.mp h
    exact ⟨bytes, Checks.mapError_eq_ok.mp hbytes, not_le.mp hroom, (Except.ok.inj hrow).symm⟩

variable {engine engine' : QueueEngine I}

theorem putQueuedOutboundIntent_ok {row : QueuedIntent I}
    (h : engine.putQueuedOutboundIntent fault row = .ok engine') :
    engine' = { engine with queued := engine.queued.upsert row } := by
  obtain ⟨_, _, h⟩ := Checks.bind_eq_ok.mp h
  cases fault with
  | some error => cases h
  | none => exact (Except.ok.inj h).symm

/-- What an accepted call answers and writes. -/
theorem queueOutboundIntent_ok {env : QueueEnv I} {faults : StorageFaults} {nowMs : UInt64}
    {groupId : GroupId} {intent : I} {n : UInt32} {result : SendResult}
    (h : queueOutboundIntent env engine faults nowMs groupId intent n = .ok (result, engine')) :
    ∃ bytes, env.toVec intent = .ok bytes ∧
      (engine.rowsOf groupId).length < maxQueuedOutboundIntentsPerGroup ∧
      result = .queued groupId
        (queuedIntentId env groupId nowMs (engine.rowsOf groupId).length bytes) ∧
      engine'.queued = engine.queued.upsert
        ⟨queuedIntentId env groupId nowMs (engine.rowsOf groupId).length bytes, groupId, intent,
          nowMs, n⟩ := by
  simp only [queueOutboundIntent, Checks.bind_eq_ok, Checks.mapError_eq_ok, Except.ok.injEq,
    Prod.mk.injEq] at h
  obtain ⟨row, hrow, stored, hput, hresult, rfl⟩ := h
  obtain ⟨bytes, hbytes, hroom, rfl⟩ := prepareQueuedOutboundIntent_ok hrow
  refine ⟨bytes, hbytes, hroom, hresult.symm, ?_⟩
  rw [putQueuedOutboundIntent_ok hput]
  split <;> rfl

theorem deleteQueuedOutboundIntent_ok {id : MessageId}
    (h : engine.deleteQueuedOutboundIntent fault id = .ok engine') :
    engine'.queued = engine.queued.erase id := by
  cases fault with
  | some error => cases h
  | none =>
    simp only [QueueEngine.deleteQueuedOutboundIntent] at h
    split at h
    · rw [← Except.ok.inj h]
    · cases h

namespace QueueLedger

variable {env : QueueEnv I} {s : QueueLedger I}

/-- The id of an intent that is queued now is stored exactly if a retained intent of the
group agrees with it. -/
theorem get?_eq_none_iff_distinguished (hs : s.Exact env) {nowMs : UInt64} {groupId : GroupId}
    {intent : I} {bytes : List UInt8} (hbytes : env.toVec intent = .ok bytes)
    (hroom : (s.engine.rowsOf groupId).length < maxQueuedOutboundIntentsPerGroup) :
    s.engine.queued.get?
        (queuedIntentId env groupId nowMs (s.engine.rowsOf groupId).length bytes) = none ↔
      s.Distinguished env nowMs groupId intent := by
  rw [KeyedTable.get?_eq_none_iff, hs.rows, map_map]
  constructor
  · rintro hfresh a ha rfl rfl hlength heq
    obtain ⟨bytes', hbytes', _, hid⟩ := hs.ids a ha
    rw [heq, hbytes, Except.ok.injEq] at hbytes'
    refine hfresh (mem_map.mpr ⟨a, ha, ?_⟩)
    rw [Function.comp_apply, hid, hlength, hbytes']
  · intro hdist hmem
    obtain ⟨a, ha, hid'⟩ := mem_map.mp hmem
    obtain ⟨bytes', hbytes', hlt, hid⟩ := hs.ids a ha
    rw [Function.comp_apply, hid] at hid'
    obtain ⟨hgroup, hclock, hlength, heq⟩ :=
      queuedIntentId_injective hlt hroom hbytes' hbytes hid'
    exact hdist a ha hgroup hclock hlength (by rw [hbytes', hbytes, heq])

/-- An accepted intent gets a row of its own exactly if it is distinguished; otherwise it
takes the place of a row that is stored. -/
theorem queued_adds_row_iff (hs : s.Exact env) {engine' : QueueEngine I} {faults : StorageFaults}
    {nowMs : UInt64} {groupId : GroupId} {intent : I} {n : UInt32} {id : MessageId}
    (h : queueOutboundIntent env s.engine faults nowMs groupId intent n =
      .ok (.queued groupId id, engine')) :
    engine'.queued.rows = s.engine.queued.rows ++ [⟨id, groupId, intent, nowMs, n⟩] ↔
      s.Distinguished env nowMs groupId intent := by
  obtain ⟨bytes, hbytes, hroom, hresult, hqueued⟩ := queueOutboundIntent_ok h
  obtain ⟨_, rfl⟩ := SendResult.queued.inj hresult
  rw [← get?_eq_none_iff_distinguished hs hbytes hroom, hqueued]
  constructor
  · intro hrows
    cases hget : s.engine.queued.get?
        (queuedIntentId env groupId nowMs (s.engine.rowsOf groupId).length bytes) with
    | none => rfl
    | some row =>
      have hlength := congrArg length hrows
      rw [KeyedTable.length_rows_upsert_of_get?_some (b := row) hget, length_append,
        length_singleton] at hlength
      omega
  · exact fun hfresh => KeyedTable.rows_upsert_of_get?_none hfresh

theorem rowsOf_of_rows_append {engine engine' : QueueEngine I} {row : QueuedIntent I}
    (h : engine'.queued.rows = engine.queued.rows ++ [row]) (groupId : GroupId) :
    engine'.rowsOf groupId =
      engine.rowsOf groupId ++ if row.groupId = groupId then [row] else [] := by
  rw [QueueEngine.rowsOf, h, filter_append, QueueEngine.rowsOf, filter_singleton]
  by_cases hg : row.groupId = groupId <;> simp [hg]

/-- A distinguished call keeps the ledger and the rows together. -/
theorem Exact.call (hs : s.Exact env) {c : QueueCall I} (hc : s.CallDistinguished env c) :
    (s.call env c).Exact env := by
  cases c with
  | queue faults nowMs groupId intent n =>
    simp only [QueueLedger.call]
    split
    · rename_i groupId' id engine' hcall
      obtain ⟨bytes, hbytes, hroom, hresult, hqueued⟩ := queueOutboundIntent_ok hcall
      obtain ⟨rfl, rfl⟩ := SendResult.queued.inj hresult
      have hrows := (queued_adds_row_iff hs hcall).mpr hc
      refine ⟨?_, ?_, ?_⟩
      · rw [hrows, hs.rows, map_append, map_singleton]
      · intro a ha
        rcases mem_append.mp ha with ha | ha
        · exact hs.ids a ha
        · rw [mem_singleton.mp ha]
          exact ⟨bytes, hbytes, hroom, rfl⟩
      · intro g
        have hbound := hs.bounded g
        rw [rowsOf_of_rows_append hrows, length_append]
        split
        · rename_i hg
          subst hg
          rw [length_singleton]
          exact hroom
        · simpa using hbound
    · exact hs
  | delete fault id =>
    simp only [QueueLedger.call]
    split
    · rename_i engine' hcall
      have hqueued := deleteQueuedOutboundIntent_ok hcall
      refine ⟨?_, ?_, ?_⟩
      · rw [hqueued, KeyedTable.rows_erase, hs.rows, filter_map]
        rfl
      · intro a ha
        exact hs.ids a (mem_filter.mp ha).1
      · intro g
        refine le_trans (List.Sublist.length_le ?_) (hs.bounded g)
        rw [QueueEngine.rowsOf, hqueued]
        exact filter_sublist.filter _
    · exact hs

theorem exact_start (stable : GroupId → Bool) : (start stable : QueueLedger I).Exact env :=
  ⟨rfl, fun _ ha => absurd ha not_mem_nil, fun _ => Nat.zero_le _⟩

theorem exact_run {stable : GroupId → Bool} {calls : List (QueueCall I)}
    (h : ∀ before c after, calls = before ++ c :: after →
      (run env stable before).CallDistinguished env c) :
    (run env stable calls).Exact env := by
  induction calls using reverseRecOn with
  | nil => exact exact_start stable
  | append_singleton calls c ih =>
    have hcalls : (run env stable calls).Exact env :=
      ih fun before c' after heq => h before c' (after ++ [c]) (by rw [heq]; simp)
    have hc := h calls c [] rfl
    rw [run, foldl_concat]
    exact hcalls.call hc

/-- Where every queued intent is distinguished from the retained ones, each accepted call
adds its row and nothing else, and the rows of a group are the intents accepted and not
deleted since, in the order of acceptance, never more than the capacity. -/
theorem retained_intents_exact (env : QueueEnv I) (stable : GroupId → Bool)
    (calls : List (QueueCall I))
    (h : ∀ before c after, calls = before ++ c :: after →
      (run env stable before).CallDistinguished env c) :
    (∀ groupId, (run env stable calls).engine.rowsOf groupId =
      (run env stable calls).retainedOf groupId) ∧
    (∀ groupId, ((run env stable calls).engine.rowsOf groupId).length ≤
      maxQueuedOutboundIntentsPerGroup) ∧
    ∀ before after faults nowMs groupId intent n id engine',
      calls = before ++ .queue faults nowMs groupId intent n :: after →
      queueOutboundIntent env (run env stable before).engine faults nowMs groupId intent n =
        .ok (.queued groupId id, engine') →
      engine'.queued.rows =
        (run env stable before).engine.queued.rows ++ [⟨id, groupId, intent, nowMs, n⟩] := by
  have hexact := exact_run h
  refine ⟨fun groupId => ?_, hexact.bounded, ?_⟩
  · rw [QueueEngine.rowsOf, hexact.rows, retainedOf]
  · intro before after faults nowMs groupId intent n id engine' heq hcall
    have hbefore : (run env stable before).Exact env :=
      exact_run fun before' c after' heq' =>
        h before' c (after' ++ .queue faults nowMs groupId intent n :: after)
          (by rw [heq, heq']; simp)
    exact (queued_adds_row_iff hbefore hcall).mpr (h before _ after heq)

end QueueLedger

/-! ### Two messages to one group -/

namespace Sample

open QueueLedger

inductive Message where
  | hello
  | again
deriving DecidableEq

def json : Message → List UInt8
  | .hello => asciiBytes "\x7b\"AppMessage\":\x7b\"group_id\":[1],\"payload\":[1]\x7d\x7d"
  | .again => asciiBytes "\x7b\"AppMessage\":\x7b\"group_id\":[1],\"payload\":[2]\x7d\x7d"

/-- The identity function is a hash without collisions. -/
def env : QueueEnv Message where
  selfId := [7]
  toVec message := .ok (json message)
  toVec_opens message bytes h := by
    rw [← Except.ok.inj h]
    cases message
    · exact ⟨(json .hello).drop 2, by decide +kernel⟩
    · exact ⟨(json .again).drop 2, by decide +kernel⟩
  toVec_noNul message bytes h := by
    rw [← Except.ok.inj h]
    cases message <;> decide +kernel
  sha256 := id
  sha256_injective := Function.injective_id

def queueHello : QueueCall Message := .queue {} 400 [1] .hello 0

def queueAgain : QueueCall Message := .queue {} 500 [1] .again 0

def deleteHello : QueueCall Message := .delete none (queuedIntentId env [1] 400 0 (json .hello))

theorem retained_intents_exact_hello_again :
    (run env (fun _ => true) [queueHello, queueAgain]).engine.rowsOf [1] =
      (run env (fun _ => true) [queueHello, queueAgain]).retainedOf [1] ∧
    ((run env (fun _ => true) [queueHello, queueAgain]).retainedOf [1]).length = 2 := by
  refine ⟨(retained_intents_exact env (fun _ => true) [queueHello, queueAgain] ?_).1 [1],
    by decide +kernel⟩
  intro before c after h
  match before, h with
  | [], h =>
    obtain ⟨rfl, _⟩ := cons.inj h
    exact fun a ha => absurd ha not_mem_nil
  | [first], h =>
    obtain ⟨rfl, htail⟩ := cons.inj h
    obtain ⟨rfl, _⟩ := cons.inj htail
    intro a ha _ hclock
    have hstamps : (run env (fun _ => true) [queueHello]).retained.map
        (fun a => a.row.createdAtMs) = [400] := by decide +kernel
    have hmem : a.row.createdAtMs ∈ [(400 : UInt64)] :=
      hstamps ▸ mem_map_of_mem (f := fun a => a.row.createdAtMs) ha
    rw [hclock] at hmem
    exact absurd hmem (by decide)
  | first :: second :: rest, h =>
    have hlength := congrArg length h
    simp at hlength

/-- Two messages are queued at readings `400` and `500`; the first is published and
deleted; then, at reading `500` of the restarted clock, the second is sent once more.
The queue has one row again, so the id is that of the row that is stored: three intents
were accepted and one deleted, and one row is left. -/
theorem requeued_intent_replaces :
    ((run env (fun _ => true) [queueHello, queueAgain, deleteHello, queueAgain]).retainedOf
      [1]).length = 2 ∧
    ((run env (fun _ => true) [queueHello, queueAgain, deleteHello, queueAgain]).engine.rowsOf
      [1]).length = 1 := by
  constructor
  · decide +kernel
  · decide +kernel

end Sample

end Mdk.OutboundQueue
