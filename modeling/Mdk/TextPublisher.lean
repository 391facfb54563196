/-
The publisher of a text stream.

A text is split into chunks at character boundaries.  On a plaintext stream the publisher
numbers the records itself; on an encrypted one it reserves the numbers, and the transcript
after them, in the database before the first record is written, and confirms the
reservation after the last.

* `PublisherOk` — the publisher and its database agree with what was written;
* **`PublisherOk.run`** — this holds after any sequence of calls, whatever fails.
-/
import Mdk.Broker
import Mdk.Utf8

namespace Mdk

open Checks AgentTextStreamRecordV1 AgentTextStreamTranscriptV1 ReserveCall
  SqlitePublisherSequenceStore List

/-! ### Chunks -/

/-- The current chunk is closed when the next character does not fit. -/
def closeChunk (maxChunkBytes : ℕ) (ch : Char) (chunks : List (List UInt8)) (current : String) :
    List (List UInt8) × String :=
  if current ≠ "" ∧ maxChunkBytes < current.utf8ByteSize + ch.utf8Size then
    (chunks ++ [utf8Bytes current], "")
  else (chunks, current)

/-- The loop of `split_text_deltas` over the characters: the chunks so far and the current
one. -/
def splitLoop (maxChunkBytes : ℕ) :
    List Char → List (List UInt8) → String → List (List UInt8) × String
  | [], chunks, current => (chunks, current)
  | ch :: text, chunks, current =>
    let (chunks, current) := closeChunk maxChunkBytes ch chunks current
    if current = "" ∧ maxChunkBytes < ch.utf8Size then
      splitLoop maxChunkBytes text (chunks ++ [utf8Bytes (String.singleton ch)]) current
    else splitLoop maxChunkBytes text chunks (current.push ch)

/-- A text in chunks of at most so many bytes, or of one character that is longer. -/
def splitTextDeltas (text : String) (maxChunkBytes : ℕ) : List (List UInt8) :=
  if text = "" then []
  else
    let (chunks, current) := splitLoop maxChunkBytes text.toList [] ""
    if current = "" then chunks else chunks ++ [utf8Bytes current]

/-- Chunks that are texts of at most `bound` bytes and make up `text`. -/
def Chunks (bound : ℕ) (text : String) (chunks : List (List UInt8)) : Prop :=
  ∃ texts : List String, chunks = texts.map utf8Bytes ∧ String.join texts = text ∧
    ∀ t ∈ texts, t.utf8ByteSize ≤ bound

theorem Chunks.append {bound : ℕ} {text t : String} {chunks : List (List UInt8)}
    (h : Chunks bound text chunks) (ht : t.utf8ByteSize ≤ bound) :
    Chunks bound (text ++ t) (chunks ++ [utf8Bytes t]) := by
  obtain ⟨texts, rfl, rfl, hbound⟩ := h
  refine ⟨texts ++ [t], ?_, ?_, ?_⟩
  · rw [map_append, map_singleton]
  · rw [String.join_append]
    simp
  · intro t' ht'
    rcases mem_append.mp ht' with ht' | ht'
    · exact hbound t' ht'
    · rw [mem_singleton.mp ht']
      exact ht

section Split

variable {maxChunkBytes : ℕ} {chunks : List (List UInt8)} {read : String}

theorem closeChunk_spec (ch : Char) (current : String)
    (h : Chunks (max maxChunkBytes 4) read chunks)
    (hcurrent : current.utf8ByteSize ≤ max maxChunkBytes 4) :
    ∃ chunks' read' current', closeChunk maxChunkBytes ch chunks current = (chunks', current') ∧
      Chunks (max maxChunkBytes 4) read' chunks' ∧ read' ++ current' = read ++ current ∧
      (current' = "" ∨ current'.utf8ByteSize + ch.utf8Size ≤ maxChunkBytes) := by
  unfold closeChunk
  split
  · exact ⟨_, read ++ current, "", rfl, h.append hcurrent, String.append_empty, .inl rfl⟩
  · rename_i hfits
    refine ⟨_, read, current, rfl, h, rfl, ?_⟩
    by_cases hempty : current = ""
    · exact .inl hempty
    · exact .inr (not_lt.mp fun hlt => hfits ⟨hempty, hlt⟩)

/-- The chunks with the current one make up what was read. -/
theorem splitLoop_spec (text : List Char) (current : String)
    (h : Chunks (max maxChunkBytes 4) read chunks)
    (hcurrent : current.utf8ByteSize ≤ max maxChunkBytes 4) :
    ∃ chunks' read' current', splitLoop maxChunkBytes text chunks current = (chunks', current') ∧
      Chunks (max maxChunkBytes 4) read' chunks' ∧
      current'.utf8ByteSize ≤ max maxChunkBytes 4 ∧
      read' ++ current' = read ++ current ++ String.ofList text := by
  induction text generalizing chunks read current with
  | nil => exact ⟨chunks, read, current, rfl, h, hcurrent, by simp⟩
  | cons ch text ih =>
    have hch := ch.utf8Size_le_four
    obtain ⟨closed, read', current', hclose, hclosed, hread, hfits⟩ :=
      closeChunk_spec ch current h hcurrent
    have hcons : String.ofList (ch :: text) = String.singleton ch ++ String.ofList text := by
      simp
    rw [splitLoop, hclose]
    dsimp only
    split
    · rename_i hlong
      obtain ⟨rfl, _⟩ := hlong
      rw [String.append_empty] at hread
      obtain ⟨chunks'', read'', current'', heq, hchunks'', hsize, hjoin⟩ :=
        ih "" (hclosed.append (t := String.singleton ch)
          (by rw [String.utf8ByteSize_singleton]; exact le_max_of_le_right hch)) (Nat.zero_le _)
      refine ⟨chunks'', read'', current'', heq, hchunks'', hsize, ?_⟩
      rw [hjoin, hcons, hread, String.append_empty, String.append_assoc]
    · obtain ⟨chunks'', read'', current'', heq, hchunks'', hsize, hjoin⟩ :=
        ih (current'.push ch) hclosed (by
          rw [String.utf8ByteSize_push]
          rcases hfits with rfl | hfits
          · exact le_max_of_le_right ((Nat.zero_add _).trans_le hch)
          · exact le_max_of_le_left hfits)
      refine ⟨chunks'', read'', current'', heq, hchunks'', hsize, ?_⟩
      rw [hjoin, hcons, ← hread, String.push_eq_append, String.append_assoc, String.append_assoc,
        String.append_assoc]

end Split

/-- The chunks are texts that make up the whole text. -/
theorem splitTextDeltas_spec (text : String) (maxChunkBytes : ℕ) :
    Chunks (max maxChunkBytes 4) text (splitTextDeltas text maxChunkBytes) := by
  have hnil : Chunks (max maxChunkBytes 4) "" [] := ⟨[], rfl, rfl, fun t ht => by cases ht⟩
  unfold splitTextDeltas
  split
  · rename_i hempty
    rw [hempty]
    exact hnil
  · obtain ⟨chunks, read, current, heq, hchunks, hsize, hjoin⟩ :=
      splitLoop_spec text.toList "" hnil (Nat.zero_le _)
    rw [String.ofList_toList, String.empty_append] at hjoin
    rw [heq]
    dsimp only
    split
    · rename_i hempty
      rw [hempty, String.append_empty] at hjoin
      rw [hjoin] at hchunks
      simpa using hchunks
    · have happ := hchunks.append hsize
      rw [hjoin] at happ
      simpa using happ

/-! ### The publisher -/

/-- A record that was written: as it was numbered, its bytes on the wire, and the
publisher's transcript after it. -/
structure SentRecord where
  record : AgentTextStreamRecordV1
  frame : List UInt8
  transcript : AgentTextStreamTranscriptV1
deriving DecidableEq, Repr

/-- The outgoing stream.  A stream that failed once takes nothing any more. -/
structure SendStream where
  sent : List SentRecord
  broken : Bool
deriving DecidableEq, Repr

structure OpenBrokerTextPublisher where
  streamId : List UInt8
  startEventId : MessageId
  crypto : Option AgentTextStreamCrypto
  /-- The database behind the sequence store of the crypto, if it has one. -/
  store : Option PublisherTable
  maxPlaintextFrameLen : Option UInt32

structure BrokerTextPublisher where
  send : SendStream
  transcript : AgentTextStreamTranscriptV1
  nextSeq : ℕ
  crypto : Option AgentTextStreamCrypto
  store : Option PublisherTable
  maxPlaintextFrameLen : Option UInt32

/-- The arguments of `append_record_text`, the token its reservation draws, and how many
frames the stream takes before it breaks. -/
structure AppendCall where
  recordType : UInt8
  text : String
  maxChunkBytes : ℕ
  token : ReservationToken
  takes : ℕ
deriving DecidableEq, Repr

namespace BrokerTextPublisher

variable (prims : StreamPrimitives)

def connect (config : OpenBrokerTextPublisher) : BrokerTextPublisher where
  send := ⟨[], false⟩
  transcript := .new prims.sha config.streamId config.startEventId
  nextSeq := 1
  crypto := config.crypto
  store := config.store
  maxPlaintextFrameLen := config.maxPlaintextFrameLen

variable (crypto : Option AgentTextStreamCrypto) (record : AgentTextStreamRecordV1)

/-- A record as it goes out: sealed on an encrypted stream. -/
def wireRecord : Except QuicBrokerError AgentTextStreamRecordV1 :=
  match crypto with
  | some crypto => (encryptRecord prims crypto record).mapError .streamCrypto
  | none => .ok record

/-- The bytes of a record on the wire. -/
def wireFrame :
    Except QuicBrokerError (List UInt8) := do
  record.validate.mapError .record
  let wireRecord ← wireRecord prims crypto record
  let bytes ← wireRecord.encode.mapError .record
  require (bytes.length < 2 ^ 32) (.frameTooLarge bytes.length)
  pure bytes

/-- The loop over the records: how many were appended, the transcript and the stream. -/
def writeRecords (crypto : Option AgentTextStreamCrypto) :
    List AgentTextStreamRecordV1 → ℕ → AgentTextStreamTranscriptV1 → SendStream → ℕ →
      Except QuicBrokerError ℕ × AgentTextStreamTranscriptV1 × SendStream
  | [], _, transcript, send, appended => (.ok appended, transcript, send)
  | record :: records, takes, transcript, send, appended =>
    match wireFrame prims crypto record with
    | .error e => (.error e, transcript, send)
    | .ok frame =>
      if send.broken ∨ takes = 0 then (.error .write, transcript, { send with broken := true })
      else
        let transcript :=
          transcript.append prims.sha record.seq record.recordType record.plaintextFrame
        writeRecords crypto records (takes - 1) transcript
          { send with sent := send.sent ++ [⟨record, frame, transcript⟩] } (appended + 1)

/-- The records of a plaintext stream, and the next number; the counter wraps. -/
def numberPlain (streamId : List UInt8) :
    ℕ → List (UInt8 × List UInt8) → List AgentTextStreamRecordV1 × ℕ
  | nextSeq, [] => ([], nextSeq)
  | nextSeq, (recordType, chunk) :: frames =>
    let (records, nextSeq') := numberPlain streamId ((nextSeq + 1) % 2 ^ 64) frames
    (.new streamId nextSeq recordType chunk :: records, nextSeq')

def reservePublisherRecords (store : Option PublisherTable) (call : ReserveCall)
    (token : ReservationToken) :
    Except QuicTextStreamError (List AgentTextStreamRecordV1 × PublisherSequenceReservation) ×
      Option PublisherTable :=
  match store with
  | none => (.error .publisherSequenceStateRequired, none)
  | some table =>
    match SqlitePublisherSequenceStore.load table (call.contextId prims.sha) with
    | .error e => (.error (.publisherSequence e), some table)
    | .ok loaded =>
      match call.compute prims.sha (call.expected prims.sha loaded) token with
      | .error e => (.error e, some table)
      | .ok (records, reservation) =>
        match SqlitePublisherSequenceStore.reserve table (call.contextId prims.sha)
            (call.initial prims.sha).hash reservation with
        | (.error e, table) => (.error (.publisherSequence e), some table)
        | (.ok (), table) => (.ok (records, reservation), some table)

/-- `ReservedPublisherRecords::confirm`. -/
def confirmReserved (store : Option PublisherTable) (contextId : ContextId)
    (token : ReservationToken) : Except QuicTextStreamError Unit × Option PublisherTable :=
  match store with
  | none => (.error .publisherSequenceStateRequired, none)
  | some table =>
    match confirmAgentStreamPublisherReservation table contextId token with
    | (.error e, table) => (.error (.publisherSequence e), some table)
    | (.ok (), table) => (.ok (), some table)

variable (publisher : BrokerTextPublisher)

/-- The frames of a call. -/
def callFrames (call : AppendCall) : List (UInt8 × List UInt8) :=
  (splitTextDeltas call.text
    (min call.maxChunkBytes (effectivePlaintextCap publisher.maxPlaintextFrameLen))).map
      fun chunk => (call.recordType, chunk)

/-- The reservation a call asks for. -/
def reserveCall (crypto : AgentTextStreamCrypto) (frames : List (UInt8 × List UInt8)) :
    ReserveCall :=
  ⟨crypto.context, publisher.transcript.streamId, publisher.transcript.startEventId, frames⟩

/-- Records that the publisher numbers itself. -/
def appendPlain (frames : List (UInt8 × List UInt8)) (call : AppendCall) :
    Except QuicBrokerError ℕ × BrokerTextPublisher :=
  let (records, nextSeq) := numberPlain publisher.transcript.streamId publisher.nextSeq frames
  let (result, transcript, send) := writeRecords prims publisher.crypto records call.takes
    publisher.transcript publisher.send 0
  (result, { publisher with nextSeq := nextSeq, transcript := transcript, send := send })

/-- Records with reserved numbers. -/
def appendReserved (crypto : AgentTextStreamCrypto) (frames : List (UInt8 × List UInt8))
    (call : AppendCall) : Except QuicBrokerError ℕ × BrokerTextPublisher :=
  let reserve := publisher.reserveCall crypto frames
  match reservePublisherRecords prims publisher.store reserve call.token with
  | (.error e, store) => (.error (.streamCrypto e), { publisher with store := store })
  | (.ok (records, reservation), store) =>
    match writeRecords prims publisher.crypto records call.takes publisher.transcript
        publisher.send 0 with
    | (.error e, transcript, send) =>
      (.error e, { publisher with store := store, transcript := transcript, send := send })
    | (.ok appended, transcript, send) =>
      match confirmReserved store (reserve.contextId prims.sha) call.token with
      | (.error e, store) => (.error (.streamCrypto e),
          { publisher with store := store, transcript := transcript, send := send })
      | (.ok (), store) =>
        (.ok appended, { publisher with
          store := store
          send := send
          transcript := .fromState transcript.streamId transcript.startEventId
            reservation.resulting.transcriptHash reservation.resulting.chunkCount
          nextSeq := min (reservation.resulting.chunkCount + 1) (2 ^ 64 - 1) })

def appendRecordText (call : AppendCall) : Except QuicBrokerError ℕ × BrokerTextPublisher :=
  if call.maxChunkBytes = 0 then (.error .emptyChunkSize, publisher)
  else if Mdk.maxPlaintextFrameLen < call.maxChunkBytes then
    (.error (.chunkSizeTooLarge call.maxChunkBytes), publisher)
  else
    let frames := publisher.callFrames call
    match publisher.crypto.filter fun _ => !frames.isEmpty with
    | some crypto => publisher.appendReserved prims crypto frames call
    | none => publisher.appendPlain prims frames call

/-- The results of a sequence of calls, and the publisher after them. -/
def appendAll (publisher : BrokerTextPublisher) :
    List AppendCall → List (Except QuicBrokerError ℕ) × BrokerTextPublisher
  | [] => ([], publisher)
  | call :: calls =>
    let (result, publisher) := publisher.appendRecordText prims call
    let (results, publisher) := appendAll publisher calls
    (result :: results, publisher)

end BrokerTextPublisher

open BrokerTextPublisher

/-! ### What was written -/

section Log

variable (prims : StreamPrimitives) (crypto : Option AgentTextStreamCrypto)
  (init : AgentTextStreamTranscriptV1)

/-- The records that were written to a stream, in order: numbered from `1`, each the frame of
its record, with the transcript of all up to it. -/
inductive Log : List SentRecord → Prop where
  | nil : Log []
  | snoc {sent : List SentRecord} {entry : SentRecord} (log : Log sent)
      (seq : entry.record.seq = (sent.length + 1) % 2 ^ 64)
      (streamId : entry.record.streamId = init.streamId)
      (text : ∃ text, utf8Bytes text = entry.record.plaintextFrame)
      (frame : BrokerTextPublisher.wireFrame prims crypto entry.record = .ok entry.frame)
      (transcript : entry.transcript =
        init.appendRecords prims.sha ((sent ++ [entry]).map SentRecord.record)) :
      Log (sent ++ [entry])

/-- Records that may be written next, from the number `k`. -/
def Ready (streamId : List UInt8) : ℕ → List AgentTextStreamRecordV1 → Prop
  | _, [] => True
  | k, record :: records => record.seq = k % 2 ^ 64 ∧ record.streamId = streamId ∧
      (∃ text, utf8Bytes text = record.plaintextFrame) ∧
      record.plaintextFrame.length ≤ maxPlaintextFrameLen ∧ Ready streamId (k + 1) records

/-- The frame of a record. -/
def framesOf (records : List AgentTextStreamRecordV1) : List (UInt8 × List UInt8) :=
  records.map fun record => (record.recordType, record.plaintextFrame)

/-- A frame that is a text within the profile. -/
def TextFrame (frame : UInt8 × List UInt8) : Prop :=
  (∃ text, utf8Bytes text = frame.2) ∧ frame.2.length ≤ maxPlaintextFrameLen

variable {prims crypto init}

theorem framesOf_numberPlain (streamId : List UInt8) (nextSeq : ℕ)
    (frames : List (UInt8 × List UInt8)) :
    framesOf (numberPlain streamId nextSeq frames).1 = frames := by
  induction frames generalizing nextSeq with
  | nil => rfl
  | cons frame frames ih => exact congrArg _ (ih ((nextSeq + 1) % 2 ^ 64))

theorem numberPlain_spec (streamId : List UInt8) {k nextSeq : ℕ} (hk : nextSeq = k % 2 ^ 64)
    {frames : List (UInt8 × List UInt8)} (hframes : ∀ frame ∈ frames, TextFrame frame) :
    Ready streamId k (numberPlain streamId nextSeq frames).1 ∧
      (numberPlain streamId nextSeq frames).2 =
        (k + frames.length) % 2 ^ 64 := by
  induction frames generalizing k nextSeq with
  | nil => exact ⟨trivial, hk⟩
  | cons frame frames ih =>
    obtain ⟨recordType, chunk⟩ := frame
    have hnext : (nextSeq + 1) % 2 ^ 64 = (k + 1) % 2 ^ 64 := by
      rw [hk, Nat.mod_add_mod]
    obtain ⟨hready, hseq⟩ := ih hnext fun frame h => hframes frame (.tail _ h)
    obtain ⟨htext, hlength⟩ := hframes _ (.head _)
    refine ⟨⟨hk, rfl, htext, hlength, hready⟩, ?_⟩
    rw [length_cons, Nat.add_comm frames.length, ← Nat.add_assoc]
    exact hseq

variable {records : List AgentTextStreamRecordV1}

theorem numberFrames_spec {sha : Sha256} {streamId : List UInt8} {nextSeq offset : ℕ}
    {frames : List (UInt8 × List UInt8)} {transcript transcript' : AgentTextStreamTranscriptV1}
    (hframes : ∀ frame ∈ frames, TextFrame frame)
    (h : numberFrames sha streamId nextSeq offset frames transcript =
      .ok (records, transcript')) :
    Ready streamId (nextSeq + offset) records ∧ framesOf records = frames := by
  induction frames generalizing offset transcript records with
  | nil =>
    obtain ⟨rfl, rfl⟩ := Prod.mk.inj (Except.ok.inj h)
    exact ⟨trivial, rfl⟩
  | cons frame frames ih =>
    obtain ⟨recordType, plaintext⟩ := frame
    simp only [numberFrames, bind_eq_ok, require_eq_ok, mapError_eq_ok, pure_eq_ok,
      Prod.exists, Prod.mk.injEq] at h
    obtain ⟨_, hbound, _, _, rest, t, hrest, rfl, rfl⟩ := h
    obtain ⟨hready, hframes'⟩ := ih (fun frame h => hframes frame (.tail _ h)) hrest
    obtain ⟨htext, hlength⟩ := hframes _ (.head _)
    refine ⟨⟨(Nat.mod_eq_of_lt hbound).symm, rfl, htext, hlength, hready⟩, ?_⟩
    exact congrArg _ hframes'

/-- The loop over the records writes a beginning of them; it stops at a record that cannot
be sealed, or when the stream breaks. -/
theorem writeRecords_spec {sent : List SentRecord} (broken : Bool)
    (hlog : Log prims crypto init sent) (hready : Ready init.streamId (sent.length + 1) records)
    (takes appended : ℕ) :
    ∃ written rest result broken',
      writeRecords prims crypto records takes
          (init.appendRecords prims.sha (sent.map SentRecord.record)) ⟨sent, broken⟩ appended =
        (result, init.appendRecords prims.sha ((sent ++ written).map SentRecord.record),
          ⟨sent ++ written, broken'⟩) ∧
      records = written.map SentRecord.record ++ rest ∧
      Log prims crypto init (sent ++ written) ∧
      (rest = [] ∧ (∃ n, result = .ok n) ∧ broken' = broken ∨
        (∃ e, result = .error e) ∧ (broken' = true ∨
          ∃ record ∈ records, ∀ frame,
            wireFrame prims crypto record ≠ .ok frame)) := by
  induction records generalizing sent takes appended with
  | nil =>
    refine ⟨[], [], .ok appended, broken, ?_, rfl, ?_, .inl ⟨rfl, ⟨appended, rfl⟩, rfl⟩⟩
    · rw [append_nil]
      rfl
    · rw [append_nil]
      exact hlog
  | cons record records ih =>
    obtain ⟨hseq, hid, htext, _, hready⟩ := hready
    rw [writeRecords]
    cases hframe : wireFrame prims crypto record with
    | error e =>
      refine ⟨[], record :: records, .error e, broken, ?_, rfl, ?_, .inr ⟨⟨e, rfl⟩, .inr ?_⟩⟩
      · rw [append_nil]
      · rw [append_nil]
        exact hlog
      · refine ⟨record, .head _, fun frame heq => ?_⟩
        rw [hframe] at heq
        cases heq
    | ok frame =>
      dsimp only
      split
      · refine ⟨[], record :: records, .error .write, true, ?_, rfl, ?_,
          .inr ⟨⟨_, rfl⟩, .inl rfl⟩⟩
        · rw [append_nil]
        · rw [append_nil]
          exact hlog
      · -- The record is written; the rest is numbered from the next.
        have happ : (init.appendRecords prims.sha (sent.map SentRecord.record)).append prims.sha
            record.seq record.recordType record.plaintextFrame =
              init.appendRecords prims.sha (sent.map SentRecord.record ++ [record]) := by
          rw [appendRecords_append]
          rfl
        rw [happ]
        generalize hentry : (⟨record, frame, init.appendRecords prims.sha
          (sent.map SentRecord.record ++ [record])⟩ : SentRecord) = entry
        have hrecord : entry.record = record := by rw [← hentry]
        have hmap : sent.map SentRecord.record ++ [record] =
            (sent ++ [entry]).map SentRecord.record := by
          rw [map_append, map_singleton, hrecord]
        have hlog' : Log prims crypto init (sent ++ [entry]) := by
          refine .snoc hlog (hrecord ▸ hseq) (hrecord ▸ hid) (hrecord ▸ htext) ?_ ?_
          · rw [hrecord, hframe, ← hentry]
          · rw [← hmap, ← hentry]
        have hready' : Ready init.streamId ((sent ++ [entry]).length + 1) records := by
          rw [length_append]
          exact hready
        obtain ⟨written, rest, result, broken', heq, hrecords, hwritten, hend⟩ :=
          ih hlog' hready' (takes - 1) (appended + 1)
        refine ⟨entry :: written, rest, result, broken', ?_, ?_, ?_, ?_⟩
        · rw [hmap, heq, append_assoc]
          rfl
        · rw [hrecords, map_cons, hrecord, cons_append]
        · rw [append_assoc] at hwritten
          exact hwritten
        · refine hend.imp_right fun ⟨herror, hstop⟩ => ⟨herror, hstop.imp_right ?_⟩
          rintro ⟨record', hmem, hframe'⟩
          exact ⟨record', .tail _ hmem, hframe'⟩

/-- Nothing is written to a broken stream, or when no record can be sealed. -/
theorem writeRecords_stuck {send : SendStream} (transcript : AgentTextStreamTranscriptV1)
    (h : send.broken ∨ ∀ record ∈ records, ∀ frame,
      wireFrame prims crypto record ≠ .ok frame) (takes appended : ℕ) :
    ∃ result, writeRecords prims crypto records takes transcript send appended =
      (result, transcript, send) ∧ (records ≠ [] → ∃ e, result = .error e) := by
  cases records with
  | nil => exact ⟨.ok appended, rfl, fun hne => absurd rfl hne⟩
  | cons record records =>
    rw [writeRecords]
    cases hframe : wireFrame prims crypto record with
    | error e => exact ⟨.error e, rfl, fun _ => ⟨e, rfl⟩⟩
    | ok frame =>
      have hbroken := h.resolve_right fun hnone => hnone record (.head _) frame hframe
      dsimp only
      rw [if_pos (.inl hbroken)]
      refine ⟨.error .write, ?_, fun _ => ⟨_, rfl⟩⟩
      obtain ⟨sent, broken⟩ := send
      simp only at hbroken
      rw [hbroken]

end Log

/-! ### Reservations -/

/-- What the database has for a stream with `n` records and the transcript `hash`: no row
before the first record, a row that is closed to reservations, or one that agrees. -/
def StoreOk (initial : List UInt8) (n : ℕ) (hash : List UInt8) : Option PublisherRow → Prop
  | none => n = 0 ∧ hash = initial
  | some row => (row.disabled ∨ row.reservationToken.isSome) ∨
      row.nextSeq = n + 1 ∧ row.chunkCount = n ∧ row.transcriptHash = hash

section Reserve

variable {prims : StreamPrimitives} {table : PublisherTable} {call : ReserveCall} {n : ℕ}
  {hash : List UInt8}

/-- A snapshot that could be loaded is that of the stream. -/
theorem expected_eq (h : StoreOk (call.initial prims.sha).hash n hash
      (table.get? (call.contextId prims.sha)))
    {loaded : Option PublisherSequenceSnapshot}
    (hload : load table (call.contextId prims.sha) = .ok loaded) :
    call.expected prims.sha loaded = ⟨n + 1, hash, n⟩ := by
  obtain ⟨state, hstate, hload⟩ := bind_eq_ok.mp hload
  rw [agentStreamPublisherState] at hstate
  cases hget : table.get? (call.contextId prims.sha) with
  | none =>
    rw [hget] at hstate h
    obtain rfl := Except.ok.inj hstate
    obtain rfl := pure_eq_ok.mp hload
    obtain ⟨rfl, rfl⟩ := h
    rfl
  | some row =>
    rw [hget] at hstate h
    dsimp only at hstate
    split at hstate
    · obtain rfl := Except.ok.inj hstate
      simp only [bind_eq_ok, require_eq_ok, pure_eq_ok, Bool.or_eq_false_iff] at hload
      obtain ⟨_, ⟨htoken, hdisabled⟩, _, _, rfl⟩ := hload
      rcases h with hclosed | ⟨hseq, hcount, hhash⟩
      · rw [htoken, hdisabled] at hclosed
        simp at hclosed
      · rw [expected, Option.getD_some, hseq, hcount, hhash]
        rfl
    · cases hstate

/-- A reservation that numbers the records on from those of the stream and has left its token
in the row. -/
structure RowReserved (prims : StreamPrimitives) (call : ReserveCall) (n : ℕ) (hash : List UInt8)
    (token : ReservationToken) (records : List AgentTextStreamRecordV1)
    (resulting : PublisherSequenceSnapshot) (row : PublisherRow) : Prop where
  ready : Ready call.streamId (n + 1) records
  frames : framesOf records = call.frames
  hash : resulting.transcriptHash =
    ((fromState call.streamId call.startEventId hash n).appendRecords prims.sha records).hash
  count : resulting.chunkCount = n + records.length
  token : row.reservationToken = some token
  enabled : row.disabled = false
  nextSeq : row.nextSeq = n + records.length + 1
  chunkCount : row.chunkCount = n + records.length
  rowHash : row.transcriptHash = resulting.transcriptHash

/-- A reservation is refused and leaves the database in order, or it is made. -/
theorem reservePublisherRecords_spec
    (h : StoreOk (call.initial prims.sha).hash n hash (table.get? (call.contextId prims.sha)))
    (hframes : ∀ frame ∈ call.frames, TextFrame frame) (token : ReservationToken) :
    (∃ e table', reservePublisherRecords prims (some table) call token =
        (.error e, some table') ∧
      StoreOk (call.initial prims.sha).hash n hash (table'.get? (call.contextId prims.sha))) ∨
    ∃ records reservation table' row,
      reservePublisherRecords prims (some table) call token =
        (.ok (records, reservation), some table') ∧
      table'.get? (call.contextId prims.sha) = some row ∧
      RowReserved prims call n hash token records reservation.resulting row := by
  unfold reservePublisherRecords
  dsimp only
  cases hload : load table (call.contextId prims.sha) with
  | error e => exact .inl ⟨_, table, rfl, h⟩
  | ok loaded =>
    dsimp only
    rw [expected_eq h hload]
    cases hcompute : call.compute prims.sha ⟨n + 1, hash, n⟩ token with
    | error e => exact .inl ⟨_, table, rfl, h⟩
    | ok computed =>
      obtain ⟨records, reservation⟩ := computed
      obtain ⟨hexpected, htoken, hprepared⟩ := compute_ok hcompute
      have hready : Ready call.streamId (n + 1) records ∧ framesOf records = call.frames := by
        simp only [compute, bind_eq_ok, require_eq_ok, pure_eq_ok, Prod.exists,
          Prod.mk.injEq] at hcompute
        obtain ⟨_, _, hnumber, _, _, rfl, _⟩ := hcompute
        have hspec := numberFrames_spec hframes hnumber
        exact hspec
      have hcount := hprepared.chunkCount
      have hhash := hprepared.hash
      rw [hexpected] at hcount hhash
      dsimp only at hcount hhash ⊢
      have houtcome := reserve_outcome table (call.contextId prims.sha)
        (call.initial prims.sha).hash reservation
      generalize reserve table (call.contextId prims.sha)
        (call.initial prims.sha).hash reservation = outcome at houtcome
      cases houtcome with
      | refused reason => exact .inl ⟨_, table, rfl, h⟩
      | @disabled reason row hrow hambiguous =>
        refine .inl ⟨_, _, rfl, ?_⟩
        have hkey := KeyedTable.key_of_get? hrow
        rw [KeyedTable.get?_upsert, if_pos hkey]
        exact .inl (.inl rfl)
      | advanced row hrow hfree hhash' hcount' hseq hbound hnonempty =>
        have hstart : row.contextId = call.contextId prims.sha ∧ row.nextSeq = n + 1 := by
          rw [hrow, startRow]
          cases hget : table.get? (call.contextId prims.sha) with
          | none =>
            rw [hget] at h
            obtain ⟨rfl, _⟩ := h
            exact ⟨rfl, rfl⟩
          | some row' =>
            rw [startRow, hget, Option.getD_some] at hrow
            rw [hget] at h
            subst hrow
            rw [Option.getD_some]
            refine ⟨KeyedTable.key_of_get? hget, ?_⟩
            rcases h with hclosed | ⟨hseq', _⟩
            · rw [hfree.1, hfree.2] at hclosed
              simp at hclosed
            · exact hseq'
        refine .inr ⟨records, reservation, _, _, rfl,
          (KeyedTable.get?_upsert _ _ _).trans (if_pos hstart.1), hready.1, hready.2, hhash,
          hcount, congrArg some htoken, hfree.1, ?_, ?_, rfl⟩
        · rw [hexpected]
          dsimp only
          rw [hstart.2, hcount]
          omega
        · dsimp only
          rw [hcount]
          rfl

end Reserve

/-! ### Runs of the publisher -/

/-- A stream id that records may have. -/
def ValidStreamId (streamId : List UInt8) : Prop :=
  streamId ≠ [] ∧ streamId.length ≤ maxStreamIdLen

/-- The publisher agrees with what it wrote: its transcript, the next number unless nothing
can be written any more, and the database. -/
structure PublisherOk (prims : StreamPrimitives) (init : AgentTextStreamTranscriptV1)
    (p : BrokerTextPublisher) : Prop where
  log : Log prims p.crypto init p.send.sent
  transcript : p.transcript = init.appendRecords prims.sha (p.send.sent.map SentRecord.record)
  numbered : p.crypto = none → (p.send.broken = true ∨ ¬ ValidStreamId init.streamId) ∨
    p.nextSeq = (p.send.sent.length + 1) % 2 ^ 64
  store : ∀ crypto table, p.crypto = some crypto → p.store = some table →
    StoreOk init.hash p.send.sent.length p.transcript.hash
      (table.get? (prims.sha.digest crypto.context.encode))

section Run

variable {prims : StreamPrimitives} {init : AgentTextStreamTranscriptV1}
  {p : BrokerTextPublisher} {call : AppendCall} {record : AgentTextStreamRecordV1}

/-- On a plaintext stream every record with a valid stream id is written as it is. -/
theorem wireFrame_plain (hid : ValidStreamId record.streamId)
    (hframe : record.plaintextFrame.length ≤ maxPlaintextFrameLen) :
    ∃ frame, wireFrame prims none record = .ok frame := by
  have hvalid : record.validate = .ok () :=
    validate_ok.mpr ⟨hid.1, hid.2, hframe.trans (by decide)⟩
  have hencode := encode_ok.mpr ⟨hvalid, rfl⟩
  have hidLen := hid.2
  have hid62 : record.streamId.length < 2 ^ 62 := lt_of_le_of_lt hidLen (by decide)
  have hframe62 : record.plaintextFrame.length < 2 ^ 62 := lt_of_le_of_lt hframe (by decide)
  refine ⟨_, bind_eq_ok.mpr ⟨(), mapError_eq_ok.mpr hvalid, bind_eq_ok.mpr ⟨record, rfl,
    bind_eq_ok.mpr ⟨_, mapError_eq_ok.mpr hencode, bind_eq_ok.mpr ⟨(), require_eq_ok.mpr ?_,
      rfl⟩⟩⟩⟩⟩
  have hwidth : ∀ value, quicVarintEncodedLen value ≤ 8 := by
    intro value
    unfold quicVarintEncodedLen
    split_ifs <;> decide
  have h1 := hwidth record.streamId.length
  have h2 := hwidth record.plaintextFrame.length
  simp only [length_cons, length_append, length_encodeVarBytes hid62,
    length_encodeVarBytes hframe62, length_beBytes]
  unfold maxStreamIdLen at hidLen
  unfold maxPlaintextFrameLen at hframe
  omega

/-- A record with another stream id is never written. -/
theorem wireFrame_invalid {crypto : Option AgentTextStreamCrypto}
    (hid : ¬ ValidStreamId record.streamId) (frame : List UInt8) :
    wireFrame prims crypto record ≠ .ok frame := by
  intro h
  obtain ⟨_, hvalid, _⟩ := bind_eq_ok.mp h
  have hok := validate_ok.mp (mapError_eq_ok.mp hvalid)
  exact hid ⟨hok.1, hok.2.1⟩

theorem Ready.mem {streamId : List UInt8} {k : ℕ} {records : List AgentTextStreamRecordV1}
    (h : Ready streamId k records) (hmem : record ∈ records) :
    record.streamId = streamId ∧ record.plaintextFrame.length ≤ maxPlaintextFrameLen := by
  induction records generalizing k with
  | nil => cases hmem
  | cons r records ih =>
    obtain ⟨_, hid, _, hlength, hready⟩ := h
    rcases mem_cons.mp hmem with rfl | hmem
    · exact ⟨hid, hlength⟩
    · exact ih hready hmem

/-- The frames of a call are texts within the profile. -/
theorem callFrames_text (hmax : call.maxChunkBytes ≤ maxPlaintextFrameLen)
    {frame : UInt8 × List UInt8} (hframe : frame ∈ p.callFrames call) : TextFrame frame := by
  obtain ⟨chunk, hchunk, rfl⟩ := mem_map.mp hframe
  obtain ⟨texts, heq, _, hbound⟩ := splitTextDeltas_spec call.text
    (min call.maxChunkBytes (effectivePlaintextCap p.maxPlaintextFrameLen))
  rw [heq] at hchunk
  obtain ⟨text, htext, rfl⟩ := mem_map.mp hchunk
  refine ⟨⟨text, rfl⟩, ?_⟩
  rw [length_utf8Bytes]
  exact (hbound text htext).trans (max_le (min_le_of_left_le hmax) (by decide))

variable {frames : List (UInt8 × List UInt8)}

theorem numberPlain_streamId {streamId : List UInt8} {nextSeq : ℕ}
    (h : record ∈ (numberPlain streamId nextSeq frames).1) :
    record.streamId = streamId := by
  induction frames generalizing nextSeq with
  | nil => cases h
  | cons frame frames ih =>
    rcases mem_cons.mp h with rfl | h
    · rfl
    · exact ih h

/-- What a call leaves: more records, all of its frames if it succeeded. -/
structure Appended (prims : StreamPrimitives) (init : AgentTextStreamTranscriptV1)
    (p : BrokerTextPublisher) (frames : List (UInt8 × List UInt8))
    (out : Except QuicBrokerError ℕ × BrokerTextPublisher) : Prop where
  ok : PublisherOk prims init out.2
  crypto : out.2.crypto = p.crypto
  written : ∃ written, out.2.send.sent = p.send.sent ++ written ∧
    ((∃ n, out.1 = .ok n) → framesOf (written.map SentRecord.record) = frames)

/-- A call that failed may have written some records. -/
theorem Appended.error {p' : BrokerTextPublisher} {e : QuicBrokerError}
    (hok : PublisherOk prims init p') (hcrypto : p'.crypto = p.crypto) (written : List SentRecord)
    (hsent : p'.send.sent = p.send.sent ++ written) : Appended prims init p frames (.error e, p') :=
  ⟨hok, hcrypto, written, hsent, fun ⟨_, hn⟩ => nomatch hn⟩

theorem PublisherOk.streamId (h : PublisherOk prims init p) :
    p.transcript.streamId = init.streamId ∧ p.transcript.startEventId = init.startEventId := by
  rw [h.transcript]
  exact appendRecords_ids _ _

theorem length_framesOf (records : List AgentTextStreamRecordV1) :
    (framesOf records).length = records.length := length_map _

theorem PublisherOk.appendPlain (h : PublisherOk prims init p)
    (hframes : ∀ frame ∈ frames, TextFrame frame) (hplain : p.crypto = none ∨ frames = [])
    (call : AppendCall) : Appended prims init p frames (p.appendPlain prims frames call) := by
  rcases hplain with hplain | rfl
  swap
  · refine ⟨h, rfl, [], ?_, fun _ => rfl⟩
    rw [append_nil]
    rfl
  have hall := framesOf_numberPlain p.transcript.streamId p.nextSeq frames
  unfold BrokerTextPublisher.appendPlain
  rcases h.numbered hplain with hstuck | hseq
  · -- Nothing is written.
    have hnone : p.send.broken ∨ ∀ record ∈ (BrokerTextPublisher.numberPlain
        p.transcript.streamId p.nextSeq frames).1, ∀ frame,
          BrokerTextPublisher.wireFrame prims p.crypto record ≠ .ok frame := by
      refine hstuck.imp_right fun hid record hrecord => wireFrame_invalid ?_
      rw [numberPlain_streamId hrecord, h.streamId.1]
      exact hid
    obtain ⟨result, heq, hfails⟩ := writeRecords_stuck p.transcript hnone call.takes 0
    dsimp only
    rw [heq]
    refine ⟨⟨h.log, h.transcript, fun _ => .inl hstuck, h.store⟩, rfl, [], ?_, ?_⟩
    · rw [append_nil]
    · rintro ⟨n, rfl⟩
      by_cases hempty : (BrokerTextPublisher.numberPlain p.transcript.streamId p.nextSeq
          frames).1 = []
      · rw [hempty] at hall
        exact hall
      · obtain ⟨e, he⟩ := hfails hempty
        cases he
  · obtain ⟨hready, hnext⟩ := numberPlain_spec p.transcript.streamId hseq hframes
    rw [h.streamId.1] at hready hnext hall ⊢
    obtain ⟨written, rest, result, broken, heq, hrecords, hlog, hend⟩ :=
      writeRecords_spec p.send.broken h.log hready call.takes 0
    dsimp only
    rw [← h.transcript] at heq
    rw [heq]
    refine ⟨⟨hlog, rfl, fun _ => ?_, ?_⟩, rfl, written, rfl, ?_⟩
    · rcases hend with ⟨rfl, _, rfl⟩ | ⟨_, hbroken | ⟨record, hmem, hfails⟩⟩
      · -- All records were written, and counted.
        rw [append_nil] at hrecords
        have hlength := congrArg length hall
        rw [length_framesOf, hrecords, length_map] at hlength
        refine .inr ?_
        dsimp only
        rw [hnext, length_append, hlength]
        congr 1
        omega
      · exact .inl (.inl hbroken)
      · refine .inl (.inr fun hid => ?_)
        obtain ⟨hmemId, hlength⟩ := hready.mem hmem
        rw [hplain] at hfails
        obtain ⟨frame, hframe⟩ := wireFrame_plain (hmemId ▸ hid) hlength
        exact hfails frame hframe
    · intro crypto table hcrypto
      rw [hplain] at hcrypto
      cases hcrypto
    · rintro ⟨n, rfl⟩
      rcases hend with ⟨rfl, _⟩ | ⟨⟨e, he⟩, _⟩
      · rw [append_nil] at hrecords
        rw [← hrecords]
        exact hall
      · cases he

theorem fromState_eq {t : AgentTextStreamTranscriptV1} {hash : List UInt8} {count : ℕ}
    (hhash : hash = t.hash) (hcount : count = t.chunkCount) :
    fromState t.streamId t.startEventId hash count = t := by
  subst hhash hcount
  rfl

/-- A reservation whose token is in the row is confirmed. -/
theorem confirmReserved_ok {table : PublisherTable} {contextId : ContextId}
    {row : PublisherRow} {token : ReservationToken} (hget : table.get? contextId = some row)
    (htoken : row.reservationToken = some token) (hdisabled : row.disabled = false) :
    confirmReserved (some table) contextId token =
      (.ok (), some (table.upsert { row with reservationToken := none })) := by
  unfold confirmReserved confirmAgentStreamPublisherReservation
  dsimp only
  rw [hget]
  dsimp only
  rw [if_pos ⟨htoken, hdisabled⟩]

/-- On an encrypted stream the database has the number of the next record. -/
theorem PublisherOk.encrypted {crypto : AgentTextStreamCrypto} (hcrypto : p.crypto = some crypto)
    (hlog : Log prims p.crypto init p.send.sent)
    (htranscript : p.transcript =
      init.appendRecords prims.sha (p.send.sent.map SentRecord.record))
    (hstore : ∀ table, p.store = some table → StoreOk init.hash p.send.sent.length
      p.transcript.hash (table.get? (prims.sha.digest crypto.context.encode))) :
    PublisherOk prims init p where
  log := hlog
  transcript := htranscript
  numbered hnone := by
    rw [hcrypto] at hnone
    cases hnone
  store crypto' table hcrypto' htable := by
    rw [hcrypto] at hcrypto'
    obtain rfl := Option.some.inj hcrypto'
    exact hstore table htable

theorem PublisherOk.chunkCount (h : PublisherOk prims init p)
    (hinit : init = .new prims.sha init.streamId init.startEventId) :
    p.transcript.chunkCount = p.send.sent.length := by
  rw [h.transcript, appendRecords_chunkCount, hinit, length_map]
  exact Nat.zero_add _

section Reserved

variable {crypto : AgentTextStreamCrypto} {records : List AgentTextStreamRecordV1}
  {reservation : PublisherSequenceReservation} {row : PublisherRow} {token : ReservationToken}

/-- All reserved records were written: the transcript and the row are those of the reservation. -/
theorem RowReserved.written (h : PublisherOk prims init p)
    (hinit : init = .new prims.sha init.streamId init.startEventId)
    (hreserved : RowReserved prims (p.reserveCall crypto frames) p.send.sent.length
      p.transcript.hash token records reservation.resulting row)
    {written : List SentRecord} (hrecords : records = written.map SentRecord.record) :
    fromState p.transcript.streamId p.transcript.startEventId
        reservation.resulting.transcriptHash reservation.resulting.chunkCount =
      init.appendRecords prims.sha ((p.send.sent ++ written).map SentRecord.record) ∧
    StoreOk init.hash (p.send.sent ++ written).length reservation.resulting.transcriptHash
      (some { row with reservationToken := none }) := by
  have hlength : (p.send.sent ++ written).length = p.send.sent.length + records.length := by
    rw [length_append, hrecords, length_map]
  have hstate : fromState p.transcript.streamId p.transcript.startEventId p.transcript.hash
      p.send.sent.length = p.transcript := fromState_eq rfl (h.chunkCount hinit).symm
  have hids := @appendRecords_ids prims.sha p.transcript records
  constructor
  · rw [map_append, appendRecords_append, ← h.transcript, ← hrecords, ← hids.1, ← hids.2]
    refine fromState_eq ?_ ?_
    · rw [hreserved.hash]
      exact congrArg (fun t => (t.appendRecords prims.sha records).hash) hstate
    · rw [hreserved.count, appendRecords_chunkCount, h.chunkCount hinit]
  · refine .inr ⟨?_, ?_, hreserved.rowHash⟩
    · rw [hlength]
      exact hreserved.nextSeq
    · rw [hlength]
      exact hreserved.chunkCount

/-- Writing what was reserved. -/
theorem PublisherOk.writeReserved (h : PublisherOk prims init p)
    (hinit : init = .new prims.sha init.streamId init.startEventId)
    (hcrypto : p.crypto = some crypto) (call : AppendCall) {table : PublisherTable}
    (heq : reservePublisherRecords prims p.store (p.reserveCall crypto frames) call.token =
      (.ok (records, reservation), some table))
    (hget : table.get? ((p.reserveCall crypto frames).contextId prims.sha) = some row)
    (hreserved : RowReserved prims (p.reserveCall crypto frames) p.send.sent.length
      p.transcript.hash call.token records reservation.resulting row) :
    Appended prims init p frames (p.appendReserved prims crypto frames call) := by
  have hready : Ready init.streamId (p.send.sent.length + 1) records :=
    h.streamId.1 ▸ hreserved.ready
  obtain ⟨written, rest, result, broken, hwrite, hrecords, hlog, hend⟩ :=
    writeRecords_spec p.send.broken h.log hready call.takes 0
  rw [← h.transcript] at hwrite
  simp only [BrokerTextPublisher.appendReserved, heq, hwrite]
  rcases hend with ⟨rfl, ⟨n, rfl⟩, rfl⟩ | ⟨⟨e, rfl⟩, _⟩
  · rw [append_nil] at hrecords
    obtain ⟨htranscript, hrow⟩ := hreserved.written h hinit hrecords
    have hids := @appendRecords_ids prims.sha init
      ((p.send.sent ++ written).map SentRecord.record)
    rw [h.streamId.1, h.streamId.2] at htranscript
    simp only [confirmReserved_ok hget hreserved.token hreserved.enabled, hids.1, hids.2]
    refine ⟨.encrypted hcrypto hlog htranscript ?_, rfl, written, rfl, fun _ => ?_⟩
    · rintro _ ⟨⟩
      have hkey : row.contextId = prims.sha.digest crypto.context.encode :=
        KeyedTable.key_of_get? hget
      rw [KeyedTable.get?_upsert, if_pos hkey]
      exact hrow
    · rw [← hrecords]
      exact hreserved.frames
  · refine .error (.encrypted hcrypto hlog rfl ?_) rfl written rfl
    -- The token of the reservation stays, and closes the row.
    rintro _ ⟨⟩
    have hget' : table.get? (prims.sha.digest crypto.context.encode) = some row := hget
    rw [hget']
    exact .inl (.inr (by rw [hreserved.token]; rfl))

end Reserved

theorem PublisherOk.appendReserved (h : PublisherOk prims init p)
    (hinit : init = .new prims.sha init.streamId init.startEventId)
    (hframes : ∀ frame ∈ frames, TextFrame frame) {crypto : AgentTextStreamCrypto}
    (hcrypto : p.crypto = some crypto) (call : AppendCall) :
    Appended prims init p frames (p.appendReserved prims crypto frames call) := by
  cases hstore : p.store with
  | none =>
    simp only [BrokerTextPublisher.appendReserved, hstore, reservePublisherRecords]
    refine .error (.encrypted hcrypto h.log h.transcript ?_) rfl [] (append_nil _).symm
    rintro _ ⟨⟩
  | some table =>
    have hinitial : (p.reserveCall crypto frames).initial prims.sha = init := by
      rw [ReserveCall.initial, BrokerTextPublisher.reserveCall, h.streamId.1, h.streamId.2,
        ← hinit]
    have hok := h.store crypto table hcrypto hstore
    rw [← hinitial] at hok
    rcases reservePublisherRecords_spec hok hframes call.token with
      ⟨e, table', heq, hrefused⟩ | ⟨records, reservation, table', row, heq, hget, hreserved⟩
    · rw [hinitial] at hrefused
      simp only [BrokerTextPublisher.appendReserved, hstore, heq]
      refine .error (.encrypted hcrypto h.log h.transcript ?_) rfl [] (append_nil _).symm
      rintro _ ⟨⟩
      exact hrefused
    · exact h.writeReserved hinit hcrypto call (hstore ▸ heq) hget hreserved

theorem PublisherOk.append (h : PublisherOk prims init p)
    (hinit : init = .new prims.sha init.streamId init.startEventId) (call : AppendCall) :
    Appended prims init p (p.callFrames call) (p.appendRecordText prims call) := by
  unfold BrokerTextPublisher.appendRecordText
  split
  · exact .error h rfl [] (append_nil _).symm
  · split
    · exact .error h rfl [] (append_nil _).symm
    · rename_i hmax
      have hframes : ∀ frame ∈ p.callFrames call, TextFrame frame :=
        fun frame hframe => callFrames_text (not_lt.mp hmax) hframe
      dsimp only
      split
      · rename_i crypto hfilter
        have hcrypto := (Option.filter_eq_some_iff.mp hfilter).1
        exact h.appendReserved hinit hframes hcrypto call
      · rename_i hfilter
        have hplain : p.crypto = none ∨ p.callFrames call = [] := by
          cases hcrypto : p.crypto with
          | none => exact .inl rfl
          | some crypto =>
            rw [hcrypto, Option.filter_some] at hfilter
            refine .inr ?_
            by_contra hne
            rw [if_pos (by simpa using hne)] at hfilter
            cases hfilter
        exact h.appendPlain hframes hplain call

/-- A frame's part of the text. -/
def deltaFrame (frame : UInt8 × List UInt8) : List UInt8 :=
  if frame.1 = recordTextDelta then frame.2 else []

/-- The bytes of the text that was written. -/
def deltaBytes (sent : List SentRecord) : List UInt8 :=
  (framesOf (sent.map SentRecord.record)).flatMap deltaFrame

/-- The text of the calls. -/
def deltaText (calls : List AppendCall) : String :=
  String.join ((calls.filter (·.recordType = recordTextDelta)).map AppendCall.text)

theorem deltaBytes_append (sent sent' : List SentRecord) :
    deltaBytes (sent ++ sent') = deltaBytes sent ++ deltaBytes sent' := by
  rw [deltaBytes, map_append, framesOf, map_append, flatMap_append]
  rfl

/-- The frames of a call make up its text. -/
theorem flatMap_callFrames (p : BrokerTextPublisher) (call : AppendCall) :
    (p.callFrames call).flatMap deltaFrame =
      if call.recordType = recordTextDelta then utf8Bytes call.text else [] := by
  obtain ⟨texts, heq, hjoin, _⟩ := splitTextDeltas_spec call.text
    (min call.maxChunkBytes (effectivePlaintextCap p.maxPlaintextFrameLen))
  rw [callFrames, heq, flatMap_map]
  split
  · rename_i hdelta
    simp only [deltaFrame, if_pos hdelta]
    rw [flatMap_id', ← utf8Bytes_join, hjoin]
  · rename_i hdelta
    simp only [deltaFrame, if_neg hdelta]
    exact flatMap_eq_nil_iff.mpr fun _ _ => rfl

theorem utf8Bytes_deltaText_cons (call : AppendCall) (calls : List AppendCall) :
    utf8Bytes (deltaText (call :: calls)) =
      (if call.recordType = recordTextDelta then utf8Bytes call.text else []) ++
        utf8Bytes (deltaText calls) := by
  unfold deltaText
  by_cases hdelta : call.recordType = recordTextDelta
  · rw [filter_cons_of_pos (by simpa using hdelta), if_pos hdelta, map_cons,
      String.join_cons, utf8Bytes_append]
  · rw [filter_cons_of_neg (by simpa using hdelta), if_neg hdelta, nil_append]

/-- After any sequence of calls the publisher agrees with what it wrote; if all of them
succeeded, that is their text. -/
theorem PublisherOk.run (h : PublisherOk prims init p)
    (hinit : init = .new prims.sha init.streamId init.startEventId) (calls : List AppendCall) :
    PublisherOk prims init (p.appendAll prims calls).2 ∧
      (p.appendAll prims calls).2.crypto = p.crypto ∧
      ((∀ result ∈ (p.appendAll prims calls).1, ∃ n, result = .ok n) →
        deltaBytes (p.appendAll prims calls).2.send.sent =
          deltaBytes p.send.sent ++ utf8Bytes (deltaText calls)) := by
  induction calls generalizing p with
  | nil => exact ⟨h, rfl, fun _ => (append_nil _).symm⟩
  | cons call calls ih =>
    obtain ⟨hok, hcrypto, written, hsent, hframes⟩ := h.append hinit call
    obtain ⟨hok', hcrypto', htext⟩ := ih hok
    rw [BrokerTextPublisher.appendAll]
    dsimp only
    refine ⟨hok', hcrypto'.trans hcrypto, fun hall => ?_⟩
    have hcall := hframes (hall _ (.head _))
    rw [htext fun result hresult => hall result (.tail _ hresult), hsent, deltaBytes_append,
      utf8Bytes_deltaText_cons, append_assoc, ← flatMap_callFrames p call, ← hcall]
    rfl

theorem PublisherOk.connect (prims : StreamPrimitives) (config : OpenBrokerTextPublisher)
    (hfresh : ∀ crypto table, config.crypto = some crypto → config.store = some table →
      table.get? (prims.sha.digest crypto.context.encode) = none) :
    PublisherOk prims (.new prims.sha config.streamId config.startEventId)
      (.connect prims config) := by
  refine ⟨.nil, rfl, fun _ => .inr rfl, ?_⟩
  intro crypto table hcrypto hstore
  rw [hfresh crypto table hcrypto hstore]
  exact ⟨rfl, rfl⟩

end Run

end Mdk
