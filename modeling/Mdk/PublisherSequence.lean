/-
Reservations of publisher sequence numbers.

Publishers that share one database number their records from it: a publisher loads the
next sequence number and the transcript, computes its records, reserves them in one
transaction, writes them to the network and confirms the reservation.  The transaction
compares the transcript hash and the chunk count with what was loaded, and leaves the
token of the reservation in the row until it is confirmed; a row with a token is refused
to everyone else and disabled.

`System` is the database with any number of publishers, each at some point of its call;
a `Step` moves one of them, or stops it.

* **`publisher_records_sound`** — over every run: the records returned for a context are
  numbered from `1` without a gap, their nonces differ, the row counts and hashes exactly
  these records, and a reservation that was given up is the last one of its context.
-/
import Mdk.AgentTextStream
import Mdk.KeyedTable

namespace Mdk

open Checks AgentTextStreamTranscriptV1 List

abbrev ContextId := List UInt8

abbrev ReservationToken := List UInt8

/-! ### The database -/

/-- A row of `agent_stream_publisher_sequences`; the integer columns are signed. -/
structure PublisherRow where
  contextId : ContextId
  nextSeq : ℤ
  transcriptHash : List UInt8
  chunkCount : ℤ
  reservationToken : Option ReservationToken
  disabled : Bool
deriving DecidableEq, Repr

abbrev PublisherTable := KeyedTable PublisherRow.contextId

def maxAgentStreamPublisherContexts : ℕ := 4096

structure AgentStreamPublisherState where
  nextSeq : ℕ
  transcriptHash : List UInt8
  chunkCount : ℕ
  ambiguous : Bool
deriving DecidableEq, Repr

structure AgentStreamPublisherReservationRequest where
  contextId : ContextId
  initialTranscriptHash : List UInt8
  expectedTranscriptHash : List UInt8
  expectedChunkCount : ℕ
  resultingTranscriptHash : List UInt8
  recordCount : ℕ
  resultingChunkCount : ℕ
  token : ReservationToken

variable (table : PublisherTable)

def agentStreamPublisherState (contextId : ContextId) :
    Except String (Option AgentStreamPublisherState) :=
  match table.get? contextId with
  | none => .ok none
  | some row =>
    if row.transcriptHash.length = 32 then
      -- A negative column reads as zero.
      .ok (some ⟨row.nextSeq.toNat, row.transcriptHash, row.chunkCount.toNat,
        row.reservationToken.isSome || row.disabled⟩)
    else .error "transcript_hash"

variable (request : AgentStreamPublisherReservationRequest)

/-- The checks of a reservation against the current row, and the row it leaves. -/
def advanceRow (row : PublisherRow) :
    Except String PublisherRow := do
  require (row.transcriptHash = request.expectedTranscriptHash ∧
      row.chunkCount.toNat = request.expectedChunkCount)
    "agent stream publisher state changed concurrently"
  require (request.resultingChunkCount =
      min (row.chunkCount.toNat + request.recordCount) (2 ^ 64 - 1))
    "agent stream transcript count does not match reservation"
  require (row.nextSeq.toNat + request.recordCount < 2 ^ 64)
    "agent stream publisher sequence exhausted"
  require (row.nextSeq.toNat + request.recordCount < 2 ^ 63)
    "agent stream publisher sequence exhausted"
  require (request.resultingChunkCount < 2 ^ 63)
    "agent stream publisher chunk count exhausted"
  pure { row with
    nextSeq := row.nextSeq.toNat + request.recordCount
    transcriptHash := request.resultingTranscriptHash
    chunkCount := request.resultingChunkCount
    reservationToken := some request.token }

/-- One transaction: on an error nothing is written, except that an ambiguous row is
disabled. -/
def reserveAgentStreamPublisherRecords : Except String Unit × PublisherTable :=
  if request.recordCount = 0 then
    (.error "agent stream reservation cannot be empty", table)
  else
    match table.get? request.contextId with
    | some row =>
      if row.disabled ∨ row.reservationToken.isSome then
        (.error "agent stream publisher continuity is ambiguous",
          table.upsert { row with disabled := true })
      else if row.transcriptHash.length ≠ 32 ∨ row.chunkCount < 0 ∨ row.nextSeq < 1 then
        (.error "agent stream publisher state is corrupt", table)
      else
        match advanceRow request row with
        | .ok row' => (.ok (), table.upsert row')
        | .error e => (.error e, table)
    | none =>
      if table.rows.length ≥ maxAgentStreamPublisherContexts then
        (.error "agent stream publisher state limit reached", table)
      else
        match advanceRow request
            ⟨request.contextId, 1, request.initialTranscriptHash, 0, none, false⟩ with
        | .ok row' => (.ok (), table.upsert row')
        | .error e => (.error e, table)

def confirmAgentStreamPublisherReservation (contextId : ContextId) (token : ReservationToken) :
    Except String Unit × PublisherTable :=
  match table.get? contextId with
  | some row =>
    if row.reservationToken = some token ∧ row.disabled = false then
      (.ok (), table.upsert { row with reservationToken := none })
    else (.error "agent stream publisher reservation is not current", table)
  | none => (.error "agent stream publisher reservation is not current", table)

/-! ### The publisher's store -/

structure PublisherSequenceSnapshot where
  nextSeq : ℕ
  transcriptHash : List UInt8
  chunkCount : ℕ
deriving DecidableEq, Repr

structure PublisherSequenceReservation where
  expected : PublisherSequenceSnapshot
  resulting : PublisherSequenceSnapshot
  token : ReservationToken
deriving DecidableEq, Repr

namespace SqlitePublisherSequenceStore

def load (table : PublisherTable) (contextId : ContextId) :
    Except String (Option PublisherSequenceSnapshot) := do
  match ← agentStreamPublisherState table contextId with
  | none => pure none
  | some state =>
    require (state.ambiguous = false) "publisher continuity is ambiguous"
    require (state.nextSeq ≠ 0) "publisher sequence state is corrupt"
    pure (some ⟨state.nextSeq, state.transcriptHash, state.chunkCount⟩)

/-- The number of records is the difference of the chunk counts. -/
def reserve (table : PublisherTable) (contextId : ContextId) (initialTranscriptHash : List UInt8)
    (reservation : PublisherSequenceReservation) : Except String Unit × PublisherTable :=
  if reservation.expected.chunkCount ≤ reservation.resulting.chunkCount then
    reserveAgentStreamPublisherRecords table
      { contextId := contextId
        initialTranscriptHash := initialTranscriptHash
        expectedTranscriptHash := reservation.expected.transcriptHash
        expectedChunkCount := reservation.expected.chunkCount
        resultingTranscriptHash := reservation.resulting.transcriptHash
        recordCount := reservation.resulting.chunkCount - reservation.expected.chunkCount
        resultingChunkCount := reservation.resulting.chunkCount
        token := reservation.token }
  else (.error "publisher transcript count regressed", table)

end SqlitePublisherSequenceStore

/-! ### Reserving records -/

inductive QuicTextStreamError where
  | record (error : AgentTextStreamRecordError)
  | encryptedFrameTooLarge (length : ℕ)
  | mixedStreamIds
  | crypto (reason : String)
  | publisherSequenceStateRequired
  | publisherSequence (reason : String)
deriving DecidableEq, Repr

/-- The arguments of `reserve_publisher_records`. -/
structure ReserveCall where
  context : AgentTextStreamKeyContextV1
  streamId : List UInt8
  startEventId : MessageId
  frames : List (UInt8 × List UInt8)
deriving DecidableEq, Repr

namespace ReserveCall

variable (sha : Sha256) (call : ReserveCall)

def contextId : ContextId := sha.digest call.context.encode

def initial : AgentTextStreamTranscriptV1 :=
  AgentTextStreamTranscriptV1.new sha call.streamId call.startEventId

def sequenceExhausted : QuicTextStreamError :=
  .publisherSequence "agent stream publisher sequence exhausted"

/-- The snapshot the call starts from. -/
def expected (loaded : Option PublisherSequenceSnapshot) : PublisherSequenceSnapshot :=
  loaded.getD ⟨1, (call.initial sha).hash, 0⟩

/-- The loop over the frames, from the frame at `offset`. -/
def numberFrames (streamId : List UInt8) (nextSeq : ℕ) :
    ℕ → List (UInt8 × List UInt8) → AgentTextStreamTranscriptV1 →
      Except QuicTextStreamError (List AgentTextStreamRecordV1 × AgentTextStreamTranscriptV1)
  | _, [], transcript => .ok ([], transcript)
  | offset, (recordType, plaintext) :: frames, transcript => do
    require (nextSeq + offset < 2 ^ 64) sequenceExhausted
    let record := AgentTextStreamRecordV1.new streamId (nextSeq + offset) recordType plaintext
    record.validate.mapError .record
    let (records, transcript) ← numberFrames streamId nextSeq (offset + 1) frames
      (transcript.append sha (nextSeq + offset) recordType plaintext)
    pure (record :: records, transcript)

/-- The records and the reservation of a call that loaded `expected`. -/
def compute (expected : PublisherSequenceSnapshot) (token : ReservationToken) :
    Except QuicTextStreamError (List AgentTextStreamRecordV1 × PublisherSequenceReservation) := do
  let (records, transcript) ← numberFrames sha call.streamId expected.nextSeq 0 call.frames
    (.fromState call.streamId call.startEventId expected.transcriptHash expected.chunkCount)
  require (expected.nextSeq + records.length < 2 ^ 64) sequenceExhausted
  pure (records, ⟨expected,
    ⟨expected.nextSeq + records.length, transcript.hash, transcript.chunkCount⟩, token⟩)

end ReserveCall

/-! ### Publishers -/

/-- Where a publisher is in `reserve_publisher_records`, the writing of the records and
`confirm`. -/
inductive PublisherState where
  | idle
  | loaded (call : ReserveCall) (expected : PublisherSequenceSnapshot)
  | computed (call : ReserveCall) (records : List AgentTextStreamRecordV1)
      (reservation : PublisherSequenceReservation)
  /-- The call returned its records. -/
  | reserved (call : ReserveCall) (token : ReservationToken)
  | written (call : ReserveCall) (token : ReservationToken)

namespace PublisherState

/-- The token a publisher has drawn. -/
def token? : PublisherState → Option ReservationToken
  | .idle => none
  | .loaded _ _ => none
  | .computed _ _ reservation => some reservation.token
  | .reserved _ token => some token
  | .written _ token => some token

/-- The reservation a publisher has made and not confirmed. -/
def holds? : PublisherState → Option (ReserveCall × ReservationToken)
  | .reserved call token => some (call, token)
  | .written call token => some (call, token)
  | _ => none

end PublisherState

theorem PublisherState.token?_of_holds? {state : PublisherState} {call : ReserveCall}
    {token : ReservationToken} (h : state.holds? = some (call, token)) :
    state.token? = some token := by
  cases state with
  | reserved _ _ | written _ _ => exact congrArg some (Prod.mk.inj (Option.some.inj h)).2
  | idle | loaded _ _ | computed _ _ _ => cases h

/-- A call that returned records. -/
structure ReturnedRecords where
  call : ReserveCall
  records : List AgentTextStreamRecordV1

structure PublisherSystem where
  table : PublisherTable
  publishers : ℕ → PublisherState
  /-- The tokens drawn so far. -/
  tokens : List ReservationToken
  /-- The calls that returned records, in order. -/
  returned : List ReturnedRecords

namespace PublisherSystem

variable (sha : Sha256)

def initial : PublisherSystem := ⟨.empty, fun _ => .idle, [], []⟩

variable (s : PublisherSystem) (p : ℕ)

def set (state : PublisherState) : PublisherSystem :=
  { s with publishers := Function.update s.publishers p state }

/-- The records of the calls of one context, in the order in which they were returned. -/
def returnedFor (contextId : ContextId) : List ReturnedRecords :=
  s.returned.filter fun entry => entry.call.contextId sha = contextId

def recordsFor (contextId : ContextId) : List AgentTextStreamRecordV1 :=
  (s.returnedFor sha contextId).flatMap ReturnedRecords.records

variable (call : ReserveCall)

def afterLoad : PublisherSystem :=
  match SqlitePublisherSequenceStore.load s.table (call.contextId sha) with
  | .ok loaded => s.set p (.loaded call (call.expected sha loaded))
  | .error _ => s.set p .idle

def afterCompute (expected : PublisherSequenceSnapshot) (token : ReservationToken) :
    PublisherSystem :=
  match call.compute sha expected token with
  | .ok (records, reservation) =>
    { s.set p (.computed call records reservation) with tokens := token :: s.tokens }
  | .error _ => s.set p .idle

def afterReserve (records : List AgentTextStreamRecordV1)
    (reservation : PublisherSequenceReservation) : PublisherSystem :=
  match SqlitePublisherSequenceStore.reserve s.table (call.contextId sha) (call.initial sha).hash
      reservation with
  | (.ok _, table) =>
    { s.set p (.reserved call reservation.token) with
      table := table
      returned := s.returned ++ [⟨call, records⟩] }
  | (.error _, table) => { s.set p .idle with table := table }

def afterConfirm (token : ReservationToken) : PublisherSystem :=
  { s.set p .idle with
    table := (confirmAgentStreamPublisherReservation s.table (call.contextId sha) token).2 }

/-- One publisher moves on, or is stopped: killed, or left by an error.  A stopped
publisher may be started again. -/
inductive Step : PublisherSystem → PublisherSystem → Prop where
  | load {s : PublisherSystem} {p : ℕ} (h : s.publishers p = .idle) (call : ReserveCall) :
      Step s (s.afterLoad sha p call)
  | compute {s : PublisherSystem} {p : ℕ} {call : ReserveCall}
      {expected : PublisherSequenceSnapshot} (h : s.publishers p = .loaded call expected)
      {token : ReservationToken} (hfresh : token ∉ s.tokens) :
      Step s (s.afterCompute sha p call expected token)
  | reserve {s : PublisherSystem} {p : ℕ} {call : ReserveCall}
      {records : List AgentTextStreamRecordV1} {reservation : PublisherSequenceReservation}
      (h : s.publishers p = .computed call records reservation) :
      Step s (s.afterReserve sha p call records reservation)
  | write {s : PublisherSystem} {p : ℕ} {call : ReserveCall} {token : ReservationToken}
      (h : s.publishers p = .reserved call token) :
      Step s (s.set p (.written call token))
  | confirm {s : PublisherSystem} {p : ℕ} {call : ReserveCall} {token : ReservationToken}
      (h : s.publishers p = .written call token) :
      Step s (s.afterConfirm sha p call token)
  | stop (s : PublisherSystem) (p : ℕ) : Step s (s.set p .idle)

abbrev Run := Relation.ReflTransGen (Step sha)

end PublisherSystem

/-! ### What the calls compute -/

/-- The records of a computed call, and the reservation made for them. -/
structure ReserveCall.Prepared (sha : Sha256) (call : ReserveCall)
    (records : List AgentTextStreamRecordV1) (reservation : PublisherSequenceReservation) :
    Prop where
  seqs : records.map (·.seq) = List.range' reservation.expected.nextSeq records.length
  nextSeq : reservation.resulting.nextSeq = reservation.expected.nextSeq + records.length
  chunkCount : reservation.resulting.chunkCount = reservation.expected.chunkCount + records.length
  hash : reservation.resulting.transcriptHash =
    ((AgentTextStreamTranscriptV1.fromState call.streamId call.startEventId
      reservation.expected.transcriptHash reservation.expected.chunkCount).appendRecords sha
        records).hash

variable {sha : Sha256}

theorem ReserveCall.numberFrames_ok {streamId : List UInt8} {nextSeq offset : ℕ}
    {frames : List (UInt8 × List UInt8)} {transcript transcript' : AgentTextStreamTranscriptV1}
    {records : List AgentTextStreamRecordV1}
    (h : numberFrames sha streamId nextSeq offset frames transcript = .ok (records, transcript')) :
    records.map (·.seq) = range' (nextSeq + offset) records.length ∧
      transcript' = transcript.appendRecords sha records := by
  induction frames generalizing offset transcript records with
  | nil =>
    obtain ⟨rfl, rfl⟩ := Prod.mk.inj (Except.ok.inj h)
    exact ⟨rfl, rfl⟩
  | cons frame frames ih =>
    obtain ⟨recordType, plaintext⟩ := frame
    simp only [numberFrames, bind_eq_ok, require_eq_ok, mapError_eq_ok, pure_eq_ok, Prod.exists,
      Prod.mk.injEq] at h
    obtain ⟨_, _, _, _, rest, t, hrest, rfl, rfl⟩ := h
    obtain ⟨hseqs, htranscript⟩ := ih hrest
    refine ⟨?_, htranscript⟩
    rw [map_cons, hseqs, length_cons, range'_succ]
    rfl

theorem ReserveCall.compute_ok {call : ReserveCall} {expected : PublisherSequenceSnapshot}
    {token : ReservationToken} {records : List AgentTextStreamRecordV1}
    {reservation : PublisherSequenceReservation}
    (h : call.compute sha expected token = .ok (records, reservation)) :
    reservation.expected = expected ∧ reservation.token = token ∧
      call.Prepared sha records reservation := by
  simp only [compute, bind_eq_ok, require_eq_ok, pure_eq_ok, Prod.exists, Prod.mk.injEq] at h
  obtain ⟨records', transcript, hframes, _, _, rfl, rfl⟩ := h
  obtain ⟨hseqs, rfl⟩ := numberFrames_ok hframes
  exact ⟨rfl, rfl, hseqs, rfl, appendRecords_chunkCount _ _, rfl⟩

theorem advanceRow_ok {request : AgentStreamPublisherReservationRequest}
    {row row' : PublisherRow} (h : advanceRow request row = .ok row') :
    row.transcriptHash = request.expectedTranscriptHash ∧
      row.chunkCount.toNat = request.expectedChunkCount ∧
      row.nextSeq.toNat + request.recordCount < 2 ^ 63 ∧
      row' = { row with
        nextSeq := row.nextSeq.toNat + request.recordCount
        transcriptHash := request.resultingTranscriptHash
        chunkCount := request.resultingChunkCount
        reservationToken := some request.token } := by
  simp only [advanceRow, bind_eq_ok, require_eq_ok, pure_eq_ok] at h
  obtain ⟨_, ⟨hhash, hcount⟩, _, _, _, _, _, hseq, _, _, rfl⟩ := h
  exact ⟨hhash, hcount, hseq, rfl⟩

/-- The row a reservation starts from: the stored one, or a new one. -/
def startRow (contextId : ContextId) (initialTranscriptHash : List UInt8) : PublisherRow :=
  (table.get? contextId).getD ⟨contextId, 1, initialTranscriptHash, 0, none, false⟩

/-- The three ways a reservation ends. -/
inductive ReserveOutcome (table : PublisherTable) (contextId : ContextId)
    (initialTranscriptHash : List UInt8) (reservation : PublisherSequenceReservation) :
    Except String Unit × PublisherTable → Prop where
  | refused (reason : String) :
      ReserveOutcome table contextId initialTranscriptHash reservation (.error reason, table)
  | disabled (reason : String) {row : PublisherRow} (hrow : table.get? contextId = some row)
      (hambiguous : row.disabled ∨ row.reservationToken.isSome) :
      ReserveOutcome table contextId initialTranscriptHash reservation
        (.error reason, table.upsert { row with disabled := true })
  | advanced (row : PublisherRow)
      (hrow : row = startRow table contextId initialTranscriptHash)
      (hfree : row.disabled = false ∧ row.reservationToken = none)
      (hhash : row.transcriptHash = reservation.expected.transcriptHash)
      (hcount : row.chunkCount = reservation.expected.chunkCount)
      (hseq : 1 ≤ row.nextSeq)
      (hbound : row.nextSeq.toNat +
        (reservation.resulting.chunkCount - reservation.expected.chunkCount) < 2 ^ 63)
      (hnonempty : reservation.expected.chunkCount < reservation.resulting.chunkCount) :
      ReserveOutcome table contextId initialTranscriptHash reservation
        (.ok (), table.upsert { row with
          nextSeq := row.nextSeq.toNat +
            (reservation.resulting.chunkCount - reservation.expected.chunkCount : ℕ)
          transcriptHash := reservation.resulting.transcriptHash
          chunkCount := reservation.resulting.chunkCount
          reservationToken := some reservation.token })

open SqlitePublisherSequenceStore

theorem reserve_outcome (contextId : ContextId) (initialTranscriptHash : List UInt8)
    (reservation : PublisherSequenceReservation) :
    ReserveOutcome table contextId initialTranscriptHash reservation
      (reserve table contextId initialTranscriptHash reservation) := by
  unfold reserve
  split
  · rename_i hle
    unfold reserveAgentStreamPublisherRecords
    dsimp only
    split
    · exact .refused _
    rename_i hcount
    split
    · rename_i row hget
      split
      · rename_i hambiguous
        exact .disabled _ hget hambiguous
      rename_i hfree
      split
      · exact .refused _
      rename_i hvalid
      cases hadvance : advanceRow _ row with
      | error e => exact .refused _
      | ok row' =>
        obtain ⟨hhash, hchunks, hseq, rfl⟩ := advanceRow_ok hadvance
        simp only [not_or, not_lt, ne_eq, not_not] at hvalid
        refine .advanced row ?_ ?_ hhash ?_ hvalid.2.2 hseq (by omega)
        · rw [startRow, hget, Option.getD_some]
        · simpa [not_or] using hfree
        · dsimp only at hchunks
          omega
    · rename_i hget
      split
      · exact .refused _
      cases hadvance : advanceRow _ _ with
      | error e => exact .refused _
      | ok row' =>
        obtain ⟨hhash, hchunks, hseq, rfl⟩ := advanceRow_ok hadvance
        refine .advanced ⟨contextId, 1, initialTranscriptHash, 0, none, false⟩ ?_
          ⟨rfl, rfl⟩ hhash ?_ le_rfl hseq (by omega)
        · rw [startRow, hget, Option.getD_none]
        · dsimp only at hchunks ⊢
          omega
  · exact .refused _

/-! ### The rows -/

/-- A row counts and hashes the records returned for its context. -/
structure Reserved (sha : Sha256) (row : PublisherRow) (entries : List ReturnedRecords) :
    Prop where
  nextSeq : row.nextSeq = row.chunkCount + 1
  chunkCount : row.chunkCount = (entries.flatMap ReturnedRecords.records).length
  hash : ∃ first rest, entries = first :: rest ∧ row.transcriptHash =
    ((first.call.initial sha).appendRecords sha (entries.flatMap ReturnedRecords.records)).hash
  seqs : (entries.flatMap ReturnedRecords.records).map (·.seq) =
    List.range' 1 (entries.flatMap ReturnedRecords.records).length
  bounded : (entries.flatMap ReturnedRecords.records).length < 2 ^ 63

namespace PublisherSystem

variable {s s' : PublisherSystem}

/-- Every row is tied to what was returned for its context. -/
structure RowsSound (sha : Sha256) (s : PublisherSystem) : Prop where
  unreserved : ∀ contextId, s.table.get? contextId = none → s.returnedFor sha contextId = []
  reserved : ∀ contextId row, s.table.get? contextId = some row →
    Reserved sha row (s.returnedFor sha contextId)

/-- What the publishers carry from a load was a next sequence number and its chunk count. -/
def SnapshotOk (sha : Sha256) : PublisherState → Prop
  | .loaded _ expected => expected.nextSeq = expected.chunkCount + 1
  | .computed call records reservation =>
    reservation.expected.nextSeq = reservation.expected.chunkCount + 1 ∧
      call.Prepared sha records reservation
  | _ => True

/-- Tokens are drawn once, and a reservation that is held stands in its row. -/
structure TokensSound (sha : Sha256) (s : PublisherSystem) : Prop where
  distinct : ∀ p q token, (s.publishers p).token? = some token →
    (s.publishers q).token? = some token → p = q
  drawn : ∀ p token, (s.publishers p).token? = some token → token ∈ s.tokens
  stored : ∀ contextId row token, s.table.get? contextId = some row →
    row.reservationToken = some token → token ∈ s.tokens
  held : ∀ p call token, (s.publishers p).holds? = some (call, token) →
    ∃ row, s.table.get? (call.contextId sha) = some row ∧ row.reservationToken = some token

structure Sound (sha : Sha256) (s : PublisherSystem) : Prop where
  rows : s.RowsSound sha
  snapshots : ∀ p, SnapshotOk sha (s.publishers p)
  tokens : s.TokensSound sha

/-- Nobody can reserve for the context any more: its row is disabled, or carries a token
that no publisher has. -/
def Pinned (s : PublisherSystem) (contextId : ContextId) : Prop :=
  ∃ row, s.table.get? contextId = some row ∧ (row.disabled = true ∨
    ∃ token, row.reservationToken = some token ∧ token ∈ s.tokens ∧
      ∀ p, (s.publishers p).token? ≠ some token)

@[simp] theorem set_table (s : PublisherSystem) (p : ℕ) (state : PublisherState) :
    (s.set p state).table = s.table := rfl

theorem set_publishers (s : PublisherSystem) (p q : ℕ) (state : PublisherState) :
    (s.set p state).publishers q = if q = p then state else s.publishers q := by
  simp only [set, Function.update_apply]

variable {row row' : PublisherRow}

/-- A row rewritten with the same numbers and transcript. -/
theorem RowsSound.rewrite (h : s.RowsSound sha) (htable : s'.table = s.table.upsert row')
    (hreturned : s'.returned = s.returned) (hrow : s.table.get? row.contextId = some row)
    (hcontext : row'.contextId = row.contextId) (hseq : row'.nextSeq = row.nextSeq)
    (hhash : row'.transcriptHash = row.transcriptHash) (hcount : row'.chunkCount = row.chunkCount) :
    s'.RowsSound sha := by
  have hfor : ∀ contextId, s'.returnedFor sha contextId = s.returnedFor sha contextId :=
    fun contextId => by rw [returnedFor, hreturned, returnedFor]
  constructor
  · intro contextId hnone
    rw [htable, KeyedTable.get?_upsert] at hnone
    split at hnone
    · cases hnone
    · rw [hfor]
      exact h.unreserved contextId hnone
  · intro contextId row'' hget
    rw [htable, KeyedTable.get?_upsert, hcontext] at hget
    rw [hfor]
    split at hget
    · rename_i heq
      subst heq
      have hmatch := h.reserved _ row hrow
      rw [← Option.some.inj hget]
      exact ⟨by rw [hseq, hcount]; exact hmatch.nextSeq, by rw [hcount]; exact hmatch.chunkCount,
        by rw [hhash]; exact hmatch.hash, hmatch.seqs, hmatch.bounded⟩
    · exact h.reserved contextId row'' hget

/-- The row a reservation starts from continues the records of its context, whether it is
stored or new. -/
theorem RowsSound.start (h : s.RowsSound sha) (call : ReserveCall)
    (records : List AgentTextStreamRecordV1) {row : PublisherRow}
    (hrow : row = startRow s.table (call.contextId sha) (call.initial sha).hash) :
    row.contextId = call.contextId sha ∧ ∃ first rest,
      s.returnedFor sha (call.contextId sha) ++ [⟨call, records⟩] = first :: rest ∧
      row.nextSeq = row.chunkCount + 1 ∧
      row.chunkCount = (s.recordsFor sha (call.contextId sha)).length ∧
      row.transcriptHash = ((first.call.initial sha).appendRecords sha
        (s.recordsFor sha (call.contextId sha))).hash ∧
      (s.recordsFor sha (call.contextId sha)).map (·.seq) =
        range' 1 (s.recordsFor sha (call.contextId sha)).length := by
  cases hget : s.table.get? (call.contextId sha) with
  | none =>
    have hnil := h.unreserved _ hget
    rw [startRow, hget, Option.getD_none] at hrow
    subst hrow
    refine ⟨rfl, ⟨call, records⟩, [], ?_⟩
    rw [recordsFor, hnil]
    exact ⟨rfl, rfl, rfl, rfl, rfl⟩
  | some row' =>
    have hmatch := h.reserved _ row' hget
    rw [startRow, hget, Option.getD_some] at hrow
    subst hrow
    obtain ⟨first, rest, hentries, hchain⟩ := hmatch.hash
    refine ⟨KeyedTable.key_of_get? hget, first, rest ++ [⟨call, records⟩], ?_, hmatch.nextSeq,
      hmatch.chunkCount, hchain, hmatch.seqs⟩
    rw [hentries, cons_append]

/-- A reservation against the row as it stands adds its records after those of the
context. -/
theorem RowsSound.advance (h : s.RowsSound sha) {call : ReserveCall}
    {records : List AgentTextStreamRecordV1} {reservation : PublisherSequenceReservation}
    (hrow : row = startRow s.table (call.contextId sha) (call.initial sha).hash)
    (hexpected : reservation.expected.nextSeq = reservation.expected.chunkCount + 1)
    (hprepared : call.Prepared sha records reservation)
    (hhash : row.transcriptHash = reservation.expected.transcriptHash)
    (hcount : row.chunkCount = reservation.expected.chunkCount)
    (hbound : row.nextSeq.toNat +
      (reservation.resulting.chunkCount - reservation.expected.chunkCount) < 2 ^ 63)
    (hrow' : row' = { row with
      nextSeq := row.nextSeq.toNat +
        (reservation.resulting.chunkCount - reservation.expected.chunkCount : ℕ)
      transcriptHash := reservation.resulting.transcriptHash
      chunkCount := reservation.resulting.chunkCount
      reservationToken := some reservation.token }) (htable : s'.table = s.table.upsert row')
    (hreturned : s'.returned = s.returned ++ [⟨call, records⟩]) : s'.RowsSound sha := by
  obtain ⟨hcontext, first, rest, hentries, hseq, hchunks, hchain, hseqs⟩ :=
    h.start call records hrow
  have hkey : row'.contextId = call.contextId sha := by rw [hrow', hcontext]
  have hfor : ∀ contextId, s'.returnedFor sha contextId = s.returnedFor sha contextId ++
      if call.contextId sha = contextId then [⟨call, records⟩] else [] := by
    intro contextId
    rw [returnedFor, hreturned, filter_append, returnedFor, filter_singleton]
    by_cases heq : call.contextId sha = contextId <;> simp [heq]
  constructor
  · intro contextId hnone
    rw [htable, KeyedTable.get?_upsert, hkey] at hnone
    split at hnone
    · cases hnone
    · rename_i hne
      rw [hfor, if_neg hne, append_nil]
      exact h.unreserved contextId hnone
  · intro contextId row'' hget
    rw [htable, KeyedTable.get?_upsert, hkey] at hget
    rw [hfor]
    split at hget
    · rename_i heq
      subst heq
      rw [if_pos rfl]
      have hlength : reservation.resulting.chunkCount - reservation.expected.chunkCount =
          records.length := by
        rw [hprepared.chunkCount, Nat.add_sub_cancel_left]
      rw [hlength] at hrow' hbound
      have hflat : (s.returnedFor sha (call.contextId sha) ++
          [(⟨call, records⟩ : ReturnedRecords)]).flatMap ReturnedRecords.records =
            s.recordsFor sha (call.contextId sha) ++ records := by
        rw [flatMap_append, flatMap_singleton, recordsFor]
      rw [← Option.some.inj hget, hrow']
      have hlen := hchunks.symm.trans hcount
      refine ⟨?_, ?_, ⟨first, rest, hentries, ?_⟩, ?_, ?_⟩
      · dsimp only
        rw [hprepared.chunkCount]
        omega
      · dsimp only
        rw [hflat, length_append, hprepared.chunkCount]
        omega
      · -- The chain continues from the stored hash, which is the one that was loaded.
        dsimp only
        rw [hflat, appendRecords_append, hprepared.hash]
        refine appendRecords_hash_congr ?_ records
        rw [← hchain, hhash]
        rfl
      · have hfrom : reservation.expected.nextSeq =
            1 + (s.recordsFor sha (call.contextId sha)).length := by omega
        rw [hflat, map_append, hseqs, hprepared.seqs, length_append, hfrom,
          range'_append_1]
      · rw [hflat, length_append]
        omega
    · rename_i hne
      rw [if_neg hne, append_nil]
      exact h.reserved contextId row'' hget

/-! ### One step -/

variable {state : PublisherState} {p : ℕ}

/-- A token after a publisher has moved is the new one of this publisher, or was there. -/
theorem token?_set {q : ℕ} {token : ReservationToken}
    (h : ((s.set p state).publishers q).token? = some token) :
    q = p ∧ state.token? = some token ∨ (s.publishers q).token? = some token := by
  rw [set_publishers] at h
  split at h
  · exact .inl ⟨‹_›, h⟩
  · exact .inr h

theorem token?_of_set {q : ℕ} {token : ReservationToken}
    (htoken : ∀ token, state.token? = some token → (s.publishers p).token? = some token)
    (h : ((s.set p state).publishers q).token? = some token) :
    (s.publishers q).token? = some token := by
  rcases token?_set h with ⟨rfl, hnew⟩ | hold
  · exact htoken token hnew
  · exact hold

theorem snapshots_set (h : ∀ p, SnapshotOk sha (s.publishers p)) (hstate : SnapshotOk sha state) :
    ∀ q, SnapshotOk sha ((s.set p state).publishers q) := by
  intro q
  rw [set_publishers]
  split
  · exact hstate
  · exact h q

/-- A publisher that keeps its token, or has none, leaves the tokens in order. -/
theorem TokensSound.set (h : s.TokensSound sha)
    (htoken : ∀ token, state.token? = some token → (s.publishers p).token? = some token)
    (hholds : ∀ call token, state.holds? = some (call, token) →
      (s.publishers p).holds? = some (call, token)) : (s.set p state).TokensSound sha := by
  refine ⟨fun q r token hq hr =>
      h.distinct q r token (token?_of_set htoken hq) (token?_of_set htoken hr),
    fun q token hq => h.drawn q token (token?_of_set htoken hq), h.stored, ?_⟩
  intro q call token hq
  rw [set_publishers] at hq
  split at hq
  · exact h.held p call token (hholds call token hq)
  · exact h.held q call token hq

/-- The snapshot of a successful load. -/
theorem load_ok (h : s.RowsSound sha) {call : ReserveCall}
    {loaded : Option PublisherSequenceSnapshot}
    (hload : load s.table (call.contextId sha) = .ok loaded) :
    (call.expected sha loaded).nextSeq = (call.expected sha loaded).chunkCount + 1 := by
  obtain ⟨state, hstate, hload⟩ := bind_eq_ok.mp hload
  rw [agentStreamPublisherState] at hstate
  cases hget : s.table.get? (call.contextId sha) with
  | none =>
    rw [hget] at hstate
    obtain rfl := Except.ok.inj hstate
    obtain rfl := pure_eq_ok.mp hload
    rfl
  | some row =>
    rw [hget] at hstate
    dsimp only at hstate
    split at hstate
    · obtain rfl := Except.ok.inj hstate
      simp only [bind_eq_ok, require_eq_ok, pure_eq_ok] at hload
      obtain ⟨_, _, _, _, rfl⟩ := hload
      have hmatch := h.reserved _ row hget
      have hseq := hmatch.nextSeq
      have hcount := hmatch.chunkCount
      simp only [ReserveCall.expected, Option.getD_some]
      omega
    · cases hstate

/-- The table after a rewrite of one row's flags: no token appears. -/
theorem TokensSound.rewrite (h : s.TokensSound sha) (hrow : s.table.get? row.contextId = some row)
    (hcontext : row'.contextId = row.contextId)
    (htoken : row'.reservationToken = row.reservationToken) :
    ({ s with table := s.table.upsert row' } : PublisherSystem).TokensSound sha := by
  refine ⟨h.distinct, h.drawn, ?_, ?_⟩
  · intro contextId row'' token hget
    dsimp only at hget
    rw [KeyedTable.get?_upsert] at hget
    split at hget
    · rw [← Option.some.inj hget, htoken]
      exact h.stored _ row token hrow
    · exact h.stored contextId row'' token hget
  · intro p call token hp
    obtain ⟨row'', hget, htoken''⟩ := h.held p call token hp
    dsimp only
    rw [KeyedTable.get?_upsert, hcontext]
    split
    · rename_i heq
      rw [← heq, hrow] at hget
      exact ⟨row', rfl, by rw [htoken, Option.some.inj hget, htoken'']⟩
    · exact ⟨row'', hget, htoken''⟩

theorem Sound.initial : (initial : PublisherSystem).Sound sha :=
  ⟨⟨fun _ _ => rfl, nofun⟩, fun _ => trivial, nofun, nofun, nofun, nofun⟩

theorem Sound.set (h : s.Sound sha) (hsnapshot : SnapshotOk sha state)
    (htoken : ∀ token, state.token? = some token → (s.publishers p).token? = some token)
    (hholds : ∀ call token, state.holds? = some (call, token) →
      (s.publishers p).holds? = some (call, token)) : (s.set p state).Sound sha :=
  ⟨⟨h.rows.unreserved, h.rows.reserved⟩, snapshots_set h.snapshots hsnapshot,
    h.tokens.set htoken hholds⟩

theorem Sound.stop (h : s.Sound sha) (p : ℕ) : (s.set p .idle).Sound sha :=
  h.set trivial nofun nofun

/-- A drawn token is new, so that nobody else has it. -/
theorem TokensSound.draw (h : s.TokensSound sha) {call : ReserveCall}
    {records : List AgentTextStreamRecordV1} {reservation : PublisherSequenceReservation}
    (hfresh : reservation.token ∉ s.tokens) :
    ({ s.set p (.computed call records reservation) with
      tokens := reservation.token :: s.tokens } : PublisherSystem).TokensSound sha := by
  have hold : ∀ q token, ((s.set p (.computed call records reservation)).publishers q).token? =
      some token → q = p ∧ token = reservation.token ∨ (s.publishers q).token? = some token :=
    fun q token hq => (token?_set hq).imp_left fun h => ⟨h.1, (Option.some.inj h.2).symm⟩
  refine ⟨?_, ?_, fun contextId row token hget htoken =>
    mem_cons_of_mem _ (h.stored contextId row token hget htoken), ?_⟩
  · intro q r token hq hr
    rcases hold q token hq with ⟨rfl, htoken⟩ | hq
    · rcases hold r token hr with ⟨rfl, _⟩ | hr
      · rfl
      · exact absurd (htoken ▸ h.drawn r token hr) hfresh
    · rcases hold r token hr with ⟨_, htoken⟩ | hr
      · exact absurd (htoken ▸ h.drawn q token hq) hfresh
      · exact h.distinct q r token hq hr
  · intro q token hq
    rcases hold q token hq with ⟨_, rfl⟩ | hq
    · exact mem_cons_self
    · exact mem_cons_of_mem _ (h.drawn q token hq)
  · intro q call' token hq
    dsimp only at hq
    rw [set_publishers] at hq
    split at hq
    · cases hq
    · exact h.held q call' token hq

variable {token : ReservationToken}

/-- A reservation puts the token of the publisher into the row. -/
theorem TokensSound.advance (h : s.TokensSound sha) {call : ReserveCall}
    {returned : List ReturnedRecords} (hp : (s.publishers p).token? = some token)
    (hrow : row = startRow s.table (call.contextId sha) (call.initial sha).hash)
    (hkey : row.contextId = call.contextId sha) (hfree : row.reservationToken = none)
    (hkey' : row'.contextId = row.contextId) (htoken : row'.reservationToken = some token) :
    ({ s.set p (.reserved call token) with
      table := s.table.upsert row', returned := returned } : PublisherSystem).TokensSound sha := by
  have hold : ∀ q t, ((s.set p (.reserved call token)).publishers q).token? = some t →
      (s.publishers q).token? = some t := fun _ _ => token?_of_set fun _ ht => hp.trans ht
  refine ⟨fun q r t hq hr => h.distinct q r t (hold q t hq) (hold r t hr),
    fun q t hq => h.drawn q t (hold q t hq), ?_, ?_⟩
  · intro contextId row'' t hget ht
    dsimp only at hget ⊢
    rw [KeyedTable.get?_upsert] at hget
    split at hget
    · rw [← Option.some.inj hget, htoken] at ht
      rw [← Option.some.inj ht]
      exact h.drawn p token hp
    · exact h.stored contextId row'' t hget ht
  · intro q call' t hq
    dsimp only at hq ⊢
    rw [set_publishers] at hq
    rw [KeyedTable.get?_upsert, hkey', hkey]
    split at hq
    · obtain ⟨rfl, rfl⟩ := Prod.mk.inj (Option.some.inj hq)
      exact ⟨row', if_pos rfl, htoken⟩
    · -- The row had no token, so no other publisher held a reservation of this context.
      obtain ⟨row'', hget, ht⟩ := h.held q call' t hq
      rw [if_neg, hget]
      · exact ⟨row'', rfl, ht⟩
      · intro heq
        rw [hrow, startRow, heq, hget, Option.getD_some, ht] at hfree
        cases hfree

/-- What a confirmation does to the table. -/
theorem confirm_outcome (table : PublisherTable) (contextId : ContextId)
    (token : ReservationToken) :
    (confirmAgentStreamPublisherReservation table contextId token).2 = table ∨
      ∃ row, table.get? contextId = some row ∧ row.reservationToken = some token ∧
        row.disabled = false ∧
        (confirmAgentStreamPublisherReservation table contextId token).2 =
          table.upsert { row with reservationToken := none } := by
  unfold confirmAgentStreamPublisherReservation
  split
  · rename_i row hget
    split
    · rename_i hcurrent
      exact .inr ⟨row, hget, hcurrent.1, hcurrent.2, rfl⟩
    · exact .inl rfl
  · exact .inl rfl

/-- A confirmation takes the token out of the row; nobody else held it. -/
theorem TokensSound.confirm (h : s.TokensSound sha) {row : PublisherRow}
    (hp : (s.publishers p).token? = some token) (hrow : s.table.get? row.contextId = some row)
    (htoken : row.reservationToken = some token) :
    ({ s.set p .idle with
      table := s.table.upsert { row with reservationToken := none } } :
        PublisherSystem).TokensSound sha := by
  have hidle : (s.set p .idle).TokensSound sha := h.set nofun nofun
  refine ⟨hidle.distinct, hidle.drawn, ?_, ?_⟩
  · intro contextId row' t hget ht
    dsimp only at hget ⊢
    rw [KeyedTable.get?_upsert] at hget
    split at hget
    · rw [← Option.some.inj hget] at ht
      cases ht
    · exact h.stored contextId row' t hget ht
  · intro q call t hq
    obtain ⟨row', hget, ht⟩ := hidle.held q call t hq
    dsimp only at hq ⊢
    rw [KeyedTable.get?_upsert]
    split
    · rename_i heq
      dsimp only at heq
      rw [set_table, ← heq, hrow] at hget
      rw [← Option.some.inj hget, htoken] at ht
      rw [set_publishers] at hq
      split at hq
      · cases hq
      · rename_i hne
        have hqt := PublisherState.token?_of_holds? hq
        rw [← ht] at hqt
        exact absurd (h.distinct q p token hqt hp) hne
    · exact ⟨row', hget, ht⟩

theorem Sound.step (h : s.Sound sha) (hstep : Step sha s s') : s'.Sound sha := by
  cases hstep with
  | load hp call =>
    unfold afterLoad
    split
    · rename_i loaded hload
      exact h.set (load_ok h.rows hload) nofun nofun
    · exact h.stop _
  | @compute p call expected hp token hfresh =>
    unfold afterCompute
    split
    · rename_i records reservation hcompute
      obtain ⟨rfl, rfl, hprepared⟩ := ReserveCall.compute_ok hcompute
      have hexpected := h.snapshots p
      rw [hp] at hexpected
      exact ⟨⟨h.rows.unreserved, h.rows.reserved⟩,
        snapshots_set h.snapshots ⟨hexpected, hprepared⟩, h.tokens.draw hfresh⟩
    · exact h.stop _
  | @reserve p call records reservation hp =>
    have hsnapshot := h.snapshots p
    rw [hp] at hsnapshot
    have hidle := h.stop p
    have houtcome := reserve_outcome s.table (call.contextId sha) (call.initial sha).hash
      reservation
    unfold afterReserve
    generalize SqlitePublisherSequenceStore.reserve s.table _ _ _ = result at houtcome ⊢
    cases houtcome with
    | refused reason => exact hidle
    | @disabled reason row hrow hambiguous =>
      have hkey := KeyedTable.key_of_get? hrow
      rw [← hkey] at hrow
      exact ⟨hidle.rows.rewrite rfl rfl hrow rfl rfl rfl rfl,
        hidle.snapshots, hidle.tokens.rewrite hrow rfl rfl⟩
    | advanced row hrow hfree hhash hcount hseq hbound hnonempty =>
      have hkey := (h.rows.start call records hrow).1
      refine ⟨h.rows.advance hrow hsnapshot.1 hsnapshot.2 hhash hcount hbound rfl rfl rfl,
        snapshots_set h.snapshots trivial, ?_⟩
      exact h.tokens.advance (by rw [hp]; rfl) hrow hkey hfree.2 rfl rfl
  | @write p call token hp =>
    refine h.set trivial (fun t ht => ?_) fun call' t ht => ?_ <;> rw [hp] <;> exact ht
  | @confirm p call token hp =>
    have hidle := h.stop p
    unfold afterConfirm
    rcases confirm_outcome s.table (call.contextId sha) token with
      heq | ⟨row, hrow, htoken, _, heq⟩
    · rw [heq]
      exact hidle
    · have hkey := KeyedTable.key_of_get? hrow
      rw [← hkey] at hrow
      rw [heq]
      exact ⟨hidle.rows.rewrite rfl rfl hrow rfl rfl rfl rfl, hidle.snapshots,
        h.tokens.confirm (by rw [hp]; rfl) hrow htoken⟩
  | stop p => exact h.stop p

theorem Sound.run (h : s.Sound sha) (hrun : Run sha s s') : s'.Sound sha := by
  induction hrun with
  | refl => exact h
  | tail _ hstep ih => exact ih.step hstep

/-! ### Reservations that were given up -/

/-- A publisher that is stopped with a reservation pins its context. -/
theorem Sound.pinned_of_stop (h : s.Sound sha) {call : ReserveCall}
    (hp : (s.publishers p).holds? = some (call, token)) :
    (s.set p .idle).Pinned (call.contextId sha) := by
  obtain ⟨row, hrow, htoken⟩ := h.tokens.held p call token hp
  refine ⟨row, hrow, .inr ⟨token, htoken, h.tokens.stored _ row token hrow htoken, ?_⟩⟩
  intro q hq
  rw [set_publishers] at hq
  split at hq
  · cases hq
  · rename_i hne
    exact hne (h.tokens.distinct q p token hq (PublisherState.token?_of_holds? hp))

variable {contextId : ContextId}

/-- A context stays pinned while its row and the tokens of the publishers stay. -/
theorem Pinned.of_same (h : s.Pinned contextId)
    (htable : s'.table.get? contextId = s.table.get? contextId)
    (hdrawn : ∀ token ∈ s.tokens, token ∈ s'.tokens)
    (htokens : ∀ q token, token ∈ s.tokens → (s'.publishers q).token? = some token →
      (s.publishers q).token? = some token) : s'.Pinned contextId := by
  obtain ⟨row, hrow, hreason⟩ := h
  refine ⟨row, htable.trans hrow, hreason.imp id ?_⟩
  rintro ⟨token, htoken, hmem, hnobody⟩
  exact ⟨token, htoken, hdrawn token hmem, fun q hq => hnobody q (htokens q token hmem hq)⟩

theorem Pinned.set (h : s.Pinned contextId)
    (htoken : ∀ token, state.token? = some token → (s.publishers p).token? = some token) :
    (s.set p state).Pinned contextId :=
  h.of_same rfl (fun _ ht => ht) fun _ _ _ => token?_of_set htoken

theorem Pinned.stop (h : s.Pinned contextId) (p : ℕ) : (s.set p .idle).Pinned contextId :=
  h.set nofun

/-- A row that is pinned is neither free to reserve nor confirmed by anyone. -/
theorem Pinned.step (h : s.Pinned contextId) (hs : s.Sound sha) (hstep : Step sha s s') :
    s'.Pinned contextId ∧ s'.returnedFor sha contextId = s.returnedFor sha contextId := by
  cases hstep with
  | load hp call =>
    unfold afterLoad
    split
    · exact ⟨h.set nofun, rfl⟩
    · exact ⟨h.stop _, rfl⟩
  | @compute p call expected hp token hfresh =>
    unfold afterCompute
    split
    · rename_i records reservation hcompute
      obtain ⟨-, rfl, -⟩ := ReserveCall.compute_ok hcompute
      refine ⟨h.of_same rfl (fun t ht => mem_cons_of_mem _ ht) ?_, rfl⟩
      intro q t hmem hq
      rcases token?_set hq with ⟨_, hnew⟩ | hq
      · exact absurd (Option.some.inj hnew ▸ hmem) hfresh
      · exact hq
    · exact ⟨h.stop _, rfl⟩
  | @reserve p call records reservation hp =>
    have hidle := h.stop p
    have houtcome := reserve_outcome s.table (call.contextId sha) (call.initial sha).hash
      reservation
    unfold afterReserve
    generalize SqlitePublisherSequenceStore.reserve s.table _ _ _ = result at houtcome ⊢
    cases houtcome with
    | refused reason => exact ⟨hidle, rfl⟩
    | @disabled reason row hrow hambiguous =>
      have hkey := KeyedTable.key_of_get? hrow
      refine ⟨?_, rfl⟩
      by_cases heq : row.contextId = contextId
      · exact ⟨{ row with disabled := true }, by rw [KeyedTable.get?_upsert, if_pos heq],
          .inl rfl⟩
      · exact hidle.of_same (by rw [KeyedTable.get?_upsert, if_neg heq, set_table])
          (fun _ ht => ht) fun _ _ _ hq => hq
    | advanced row hrow hfree hhash hcount hseq hbound hnonempty =>
      have hkey := (hs.rows.start call records hrow).1
      have hne : call.contextId sha ≠ contextId := by
        -- The row of this context is not free.
        rintro rfl
        obtain ⟨row', hrow', hreason⟩ := h
        rw [startRow, hrow', Option.getD_some] at hrow
        subst hrow
        rcases hreason with hdisabled | ⟨token, htoken, _⟩
        · rw [hfree.1] at hdisabled
          cases hdisabled
        · rw [hfree.2] at htoken
          cases htoken
      constructor
      · refine h.of_same ?_ (fun _ ht => ht) fun _ _ _ => token?_of_set fun t ht => ?_
        · rw [KeyedTable.get?_upsert, if_neg (hkey ▸ hne)]
        · rw [hp]
          exact ht
      · simp only [returnedFor, filter_append, filter_singleton, hne, decide_false]
        exact append_nil _
  | @write p call token hp =>
    refine ⟨h.set ?_, rfl⟩
    intro t ht
    rw [hp]
    exact ht
  | @confirm p call token hp =>
    have hidle := h.stop p
    unfold afterConfirm
    rcases confirm_outcome s.table (call.contextId sha) token with
      heq | ⟨row, hrow, htoken, hdisabled, heq⟩
    · rw [heq]
      exact ⟨hidle, rfl⟩
    · have hne : row.contextId ≠ contextId := by
        -- Its token is the publisher's, and the row is not disabled.
        rintro rfl
        obtain ⟨row', hrow', hreason⟩ := h
        rw [KeyedTable.key_of_get? hrow, hrow] at hrow'
        obtain rfl := Option.some.inj hrow'
        rcases hreason with hreason | ⟨t, ht, _, hnobody⟩
        · rw [hdisabled] at hreason
          cases hreason
        · rw [htoken] at ht
          exact hnobody p (by rw [hp]; exact ht)
      rw [heq]
      exact ⟨hidle.of_same (by rw [KeyedTable.get?_upsert, if_neg hne, set_table])
        (fun _ ht => ht) fun _ _ _ hq => hq, rfl⟩
  | stop p => exact ⟨h.stop p, rfl⟩

theorem Pinned.run (h : s.Pinned contextId) (hs : s.Sound sha) (hrun : Run sha s s') :
    s'.Pinned contextId ∧ s'.returnedFor sha contextId = s.returnedFor sha contextId := by
  induction hrun with
  | refl => exact ⟨h, rfl⟩
  | tail hrun hstep ih =>
    obtain ⟨hpinned, hreturned⟩ := ih.1.step (hs.run hrun) hstep
    exact ⟨hpinned, hreturned.trans ih.2⟩

/-- The records of a context are numbered from one without a gap. -/
theorem Sound.seqs (h : s.Sound sha) (contextId : ContextId) :
    (s.recordsFor sha contextId).map (·.seq) =
        range' 1 (s.recordsFor sha contextId).length ∧
      (s.recordsFor sha contextId).length < 2 ^ 63 := by
  cases hget : s.table.get? contextId with
  | none =>
    rw [recordsFor, h.rows.unreserved contextId hget]
    exact ⟨rfl, by decide⟩
  | some row =>
    have hmatch := h.rows.reserved contextId row hget
    exact ⟨hmatch.seqs, hmatch.bounded⟩

/-- Over every run of publishers on one database: the sequence numbers returned for a
context are `1, …, n`; no two of its records are sealed under one nonce; the row has
`next_seq = chunk_count + 1`, counts these records and hashes them in this order; and a
publisher that is stopped between its reservation and the confirmation was the last to
get records for the context. -/
theorem publisher_records_sound (hkdf : Hkdf) (hrun : Run sha initial s)
    (contextId : ContextId) :
    (s.recordsFor sha contextId).map (·.seq) =
      List.range' 1 (s.recordsFor sha contextId).length ∧
    (s.recordsFor sha contextId).Pairwise (fun r r' => r.seq ≠ r'.seq ∧
      ∀ crypto nonce, deriveRecordNonce hkdf crypto r.seq = .ok nonce →
        deriveRecordNonce hkdf crypto r'.seq ≠ .ok nonce) ∧
    (∀ row, s.table.get? contextId = some row →
      row.nextSeq = row.chunkCount + 1 ∧
      row.chunkCount = (s.recordsFor sha contextId).length ∧
      ∃ first rest, s.returnedFor sha contextId = first :: rest ∧
        row.transcriptHash = ((AgentTextStreamTranscriptV1.new sha first.call.streamId
          first.call.startEventId).appendRecords sha (s.recordsFor sha contextId)).hash) ∧
    (s.table.get? contextId = none → s.recordsFor sha contextId = []) ∧
    ∀ p call token s', (s.publishers p).holds? = some (call, token) →
      call.contextId sha = contextId → Run sha (s.set p .idle) s' →
      s'.recordsFor sha contextId = s.recordsFor sha contextId := by
  have hsound : s.Sound sha := Sound.initial.run hrun
  obtain ⟨hseqs, hbound⟩ := hsound.seqs contextId
  refine ⟨hseqs, ?_, ?_, ?_, ?_⟩
  · have hdistinct : ((s.recordsFor sha contextId).map (·.seq)).Pairwise (· ≠ ·) := by
      rw [hseqs]
      exact nodup_range'
    refine (pairwise_map.mp hdistinct).imp_of_mem ?_
    intro r r' hr hr' hne
    have hlt : ∀ x ∈ s.recordsFor sha contextId, x.seq < 2 ^ 64 := by
      intro x hx
      have hmem : x.seq ∈ (s.recordsFor sha contextId).map (·.seq) := mem_map_of_mem hx
      rw [hseqs, mem_range'_1] at hmem
      omega
    exact ⟨hne, fun crypto nonce hnonce hnonce' =>
      hne (deriveRecordNonce_injective (hlt r hr) (hlt r' hr') hnonce hnonce')⟩
  · intro row hrow
    have hmatch := hsound.rows.reserved contextId row hrow
    exact ⟨hmatch.nextSeq, hmatch.chunkCount, hmatch.hash⟩
  · intro hnone
    rw [recordsFor, hsound.rows.unreserved contextId hnone]
    rfl
  · rintro p call token s' hp rfl hrun'
    have hpinned := hsound.pinned_of_stop hp
    rw [recordsFor, (hpinned.run (hsound.stop p) hrun').2]
    rfl

/-! ### Two records of one publisher -/

namespace Sample

/-- The last 32 bytes stand in for the hash. -/
def lastBytes : Sha256 := ⟨fun bytes => beBytes 32 (ofBeBytes bytes)⟩

def call : ReserveCall := ⟨⟨[1], [2], 3, [4], [5]⟩, [2], [5], [(1, [104]), (1, [105])]⟩

def expected : PublisherSequenceSnapshot := ⟨1, (call.initial lastBytes).hash, 0⟩

def records : List AgentTextStreamRecordV1 := [.new [2] 1 1 [104], .new [2] 2 1 [105]]

def reservation : PublisherSequenceReservation :=
  ⟨expected, ⟨3, ((call.initial lastBytes).appendRecords lastBytes records).hash, 2⟩, [9]⟩

def loaded : PublisherSystem := initial.afterLoad lastBytes 0 call

def computed : PublisherSystem := loaded.afterCompute lastBytes 0 call expected [9]

def reserved : PublisherSystem := computed.afterReserve lastBytes 0 call records reservation

theorem compute_call : call.compute lastBytes expected [9] = .ok (records, reservation) := by
  rfl

theorem run_reserved : Run lastBytes initial reserved := by
  have hload : Step lastBytes initial loaded := .load rfl call
  have hcompute : Step lastBytes loaded computed := .compute (by rfl) not_mem_nil
  have hreserve : Step lastBytes computed reserved := by
    refine .reserve ?_
    unfold computed afterCompute
    rw [compute_call]
    rfl
  exact ((Relation.ReflTransGen.single hload).tail hcompute).tail hreserve

def zeroBytes : Hkdf where
  expand _ _ n := .ok (List.replicate n 0)
  length_expand _ _ n bytes h := by
    rw [← Except.ok.inj h]
    exact List.length_replicate

theorem publisher_records_sound_reserved :
    (reserved.recordsFor lastBytes (call.contextId lastBytes)).length = 2 ∧
    (reserved.recordsFor lastBytes (call.contextId lastBytes)).map (·.seq) =
      List.range' 1 (reserved.recordsFor lastBytes (call.contextId lastBytes)).length ∧
    (reserved.publishers 0).holds? = some (call, [9]) ∧
    (((reserved.set 0 .idle).afterLoad lastBytes 1 call).recordsFor lastBytes
      (call.contextId lastBytes)).length = 2 := by
  obtain ⟨hseqs, _, _, _, hlast⟩ :=
    publisher_records_sound zeroBytes run_reserved (call.contextId lastBytes)
  have hlength : (reserved.recordsFor lastBytes (call.contextId lastBytes)).length = 2 := by
    decide +kernel
  have hholds : (reserved.publishers 0).holds? = some (call, [9]) := by decide +kernel
  have hload : Step lastBytes (reserved.set 0 .idle)
      ((reserved.set 0 .idle).afterLoad lastBytes 1 call) := .load (by rfl) call
  refine ⟨hlength, hseqs, hholds, ?_⟩
  rw [hlast 0 call [9] _ hholds rfl (Relation.ReflTransGen.single hload)]
  exact hlength

end Sample

end PublisherSystem

end Mdk
