/-
The receiver of a text stream, across connections.

The receiver keeps the number of the last record it accepted.  A frame at or below it is
discarded before anything in it is looked at; the next one is opened, counted, added to the
text and to the transcript; anything further ahead is an error.

* `Delivers` — deliveries of the next record that was sent, or of any frame that is not
  above the receiver's high-water mark;
* **`receiver_agrees`** — the receiver agrees with the sender on text and transcript, for
  what was delivered and, once all is, on the whole.
-/
import Mdk.TextPublisher

namespace Mdk

open Checks AgentTextStreamRecordV1 BrokerTextPublisher List

def recordProgressDelta : UInt8 := 0x02

def recordStatus : UInt8 := 0x03

def recordCheckpoint : UInt8 := 0x04

variable (replaced : List UInt8 → String)

/-- The text of a frame; malformed bytes are replaced in some way. -/
def fromUtf8Lossy (bytes : List UInt8) : String :=
  (ofUtf8? bytes).getD (replaced bytes)

def streamRecordText (record : AgentTextStreamRecordV1) : String :=
  if record.recordType = recordTextDelta ∨ record.recordType = recordStatus ∨
      record.recordType = recordProgressDelta ∨ record.recordType = recordCheckpoint then
    fromUtf8Lossy replaced record.plaintextFrame
  else ""

structure ReceivedTextChunk where
  seq : ℕ
  recordType : UInt8
  flags : UInt8
  text : String
deriving DecidableEq, Repr

structure BrokerTextReceiverState where
  highWater : ℕ
  framesRead : ℕ
  limits : AgentTextStreamReceiveLimits
  chunks : List ReceivedTextChunk
  text : String
  transcript : AgentTextStreamTranscriptV1
  limitState : AgentTextStreamReceiveAccumulator
deriving DecidableEq, Repr

namespace BrokerTextReceiverState

variable (prims : StreamPrimitives) (replaced : List UInt8 → String)

def new (streamId : List UInt8) (startEventId : MessageId)
    (limits : AgentTextStreamReceiveLimits) : BrokerTextReceiverState where
  highWater := 0
  framesRead := 0
  limits := limits
  chunks := []
  text := ""
  transcript := .new prims.sha streamId startEventId
  limitState := .new limits

/-- Whether the record is the next one; what is not above the mark is discarded. -/
def beginRecord (state : BrokerTextReceiverState) (seq : ℕ) :
    Except QuicBrokerError Bool × BrokerTextReceiverState :=
  let state := { state with framesRead := min (state.framesRead + 1) (2 ^ 64 - 1) }
  if state.limits.maxRecords.toNat < state.framesRead then
    (.error (.receiveLimit
      (.recordLimitExceeded state.framesRead state.limits.maxRecords.toNat)), state)
  else if seq ≤ state.highWater then (.ok false, state)
  else if seq ≠ state.highWater + 1 then
    (.error (.unexpectedSequence (state.highWater + 1) seq), state)
  else (.ok true, state)

def acceptRecord (state : BrokerTextReceiverState) (record : AgentTextStreamRecordV1)
    (expectedStreamId : List UInt8) :
    Except QuicBrokerError ReceivedTextChunk × BrokerTextReceiverState :=
  match state.limitState.observe record with
  | .error e => (.error (.receiveLimit e), state)
  | .ok limitState =>
    if record.streamId ≠ expectedStreamId then
      (.error .mixedStreamIds, { state with limitState := limitState })
    else
      let frameText := streamRecordText replaced record
      let chunk := ⟨record.seq, record.recordType, record.flags, frameText⟩
      (.ok chunk, { state with
        limitState := limitState
        highWater := record.seq
        text := if record.recordType = recordTextDelta then state.text ++ frameText else state.text
        transcript :=
          state.transcript.append prims.sha record.seq record.recordType record.plaintextFrame
        chunks := state.chunks ++ [chunk] })

def validateFrameLen (len maxFrameLen : ℕ) : Except QuicBrokerError Unit := do
  require (len ≠ 0) .emptyFrame
  require (len ≤ min maxFrameLen quicPreviewMaxFrameLen) (.frameTooLarge len)

def readRecordFrame (frame : List UInt8) (maxFrameLen : ℕ) :
    Except QuicBrokerError AgentTextStreamRecordV1 := do
  validateFrameLen frame.length maxFrameLen
  (AgentTextStreamRecordV1.decode frame).mapError .record

variable (crypto : Option AgentTextStreamCrypto)

/-- The record of a frame that is to be accepted. -/
def openRecord (record : AgentTextStreamRecordV1) :
    Except QuicBrokerError AgentTextStreamRecordV1 :=
  match crypto with
  | some crypto => (decryptRecord prims crypto record).mapError .streamCrypto
  | none => .ok record

/-- One turn of the loop of `subscribe_text_from_broker_with_resume`. -/
def receiveFrame (streamId : List UInt8) (state : BrokerTextReceiverState) (frame : List UInt8) :
    Except QuicBrokerError (Option ReceivedTextChunk) × BrokerTextReceiverState :=
  match readRecordFrame frame (frameLenCap (some state.limits.maxPlaintextFrameLen)) with
  | .error e => (.error e, state)
  | .ok record =>
    match state.beginRecord record.seq with
    | (.error e, state) => (.error e, state)
    | (.ok false, state) => (.ok none, state)
    | (.ok true, state) =>
      match openRecord prims crypto record with
      | .error e => (.error e, state)
      | .ok record =>
        match state.acceptRecord prims replaced record streamId with
        | (.error e, state) => (.error e, state)
        | (.ok chunk, state) => (.ok (some chunk), state)

/-- A connection: its frames up to the first error. -/
def receiveConnection (crypto : Option AgentTextStreamCrypto) (streamId : List UInt8) :
    BrokerTextReceiverState → List (List UInt8) →
      Except QuicBrokerError Unit × BrokerTextReceiverState
  | state, [] => (.ok (), state)
  | state, frame :: frames =>
    match state.receiveFrame prims replaced crypto streamId frame with
    | (.error e, state) => (.error e, state)
    | (.ok _, state) => receiveConnection crypto streamId state frames

/-- The state after some connections, one after the other. -/
def receiveAll (streamId : List UInt8) (state : BrokerTextReceiverState)
    (connections : List (List (List UInt8))) : BrokerTextReceiverState :=
  connections.foldl
    (fun state frames => (state.receiveConnection prims replaced crypto streamId frames).2) state

end BrokerTextReceiverState

open BrokerTextReceiverState

/-! ### Deliveries -/

section Delivery

variable (prims : StreamPrimitives) (replaced : List UInt8 → String)
  (crypto : Option AgentTextStreamCrypto) (streamId : List UInt8) (sent : List SentRecord)

/-- `Delivers state k frames n`: with the receiver at `state`, after `k` of the records that
were sent, the frames bring it to `n` of them.  Each frame is that of the next record, or any
at all whose number is not above the high-water mark of the receiver. -/
inductive Delivers : BrokerTextReceiverState → ℕ → List (List UInt8) → ℕ → Prop where
  | done (state : BrokerTextReceiverState) (k : ℕ) : Delivers state k [] k
  | next {state : BrokerTextReceiverState} {k n : ℕ} {entry : SentRecord}
      {frames : List (List UInt8)} (hentry : sent[k]? = some entry)
      (hrest : Delivers (state.receiveFrame prims replaced crypto streamId entry.frame).2 (k + 1)
        frames n) : Delivers state k (entry.frame :: frames) n
  | replay {state : BrokerTextReceiverState} {k n : ℕ} {frame : List UInt8}
      {frames : List (List UInt8)} {record : AgentTextStreamRecordV1}
      (hrecord : AgentTextStreamRecordV1.decode frame = .ok record)
      (hseq : record.seq ≤ state.highWater)
      (hrest : Delivers (state.receiveFrame prims replaced crypto streamId frame).2 k frames n) :
      Delivers state k (frame :: frames) n

/-- The plaintext of the first records. -/
def plaintextBytes (k : ℕ) : ℕ :=
  ((sent.take k).map fun entry => entry.record.plaintextFrame.length).sum

/-- The receiver has exactly the first `k` records, after `read` frames. -/
structure Received (init : AgentTextStreamTranscriptV1) (limits : AgentTextStreamReceiveLimits)
    (k read : ℕ) (state : BrokerTextReceiverState) : Prop where
  count : k ≤ read
  highWater : state.highWater = k
  framesRead : state.framesRead = read
  bounds : state.limits = limits
  text : utf8Bytes state.text = deltaBytes (sent.take k)
  transcript : state.transcript =
    init.appendRecords prims.sha ((sent.take k).map SentRecord.record)
  limitState : state.limitState = ⟨limits, k, plaintextBytes sent k⟩

end Delivery

section Receive

variable {prims : StreamPrimitives} {replaced : List UInt8 → String}
  {crypto : Option AgentTextStreamCrypto} {init : AgentTextStreamTranscriptV1}
  {sent : List SentRecord} {limits : AgentTextStreamReceiveLimits}
  {state : BrokerTextReceiverState} {k n read : ℕ} {entry : SentRecord}

/-- What the log says of one record. -/
theorem Log.get (h : Log prims crypto init sent) (hentry : sent[k]? = some entry) :
    entry.record.seq = (k + 1) % 2 ^ 64 ∧ entry.record.streamId = init.streamId ∧
      (∃ text, utf8Bytes text = entry.record.plaintextFrame) ∧
      wireFrame prims crypto entry.record = .ok entry.frame ∧
      entry.transcript =
        init.appendRecords prims.sha ((sent.take (k + 1)).map SentRecord.record) := by
  induction h with
  | nil => cases hentry
  | @snoc sent last log seq streamId text frame transcript ih =>
    rcases Nat.lt_or_ge k sent.length with hlt | hge
    · rw [getElem?_append_left hlt] at hentry
      rw [take_append_of_le_length hlt]
      exact ih hentry
    · rw [getElem?_append_right hge] at hentry
      have hlast : k - sent.length = 0 := by
        by_contra hne
        rw [getElem?_eq_none (by rw [length_singleton]; omega)] at hentry
        cases hentry
      rw [hlast] at hentry
      obtain rfl := Option.some.inj hentry
      obtain rfl : k = sent.length := by omega
      rw [take_of_length_le (by rw [length_append, length_singleton])]
      exact ⟨seq, streamId, text, frame, transcript⟩

variable {record : AgentTextStreamRecordV1} {frame : List UInt8}

/-- A frame on the wire is that of a record that opens to the one that was sent. -/
theorem wireFrame_ok (h : wireFrame prims crypto record = .ok frame) :
    ∃ wire, wire.encode = .ok frame ∧ wire.seq = record.seq ∧
      openRecord prims crypto wire = .ok record := by
  obtain ⟨_, _, h⟩ := bind_eq_ok.mp h
  obtain ⟨wire, hwire, h⟩ := bind_eq_ok.mp h
  obtain ⟨bytes, hencode, h⟩ := bind_eq_ok.mp h
  obtain ⟨_, _, h⟩ := bind_eq_ok.mp h
  obtain rfl := pure_eq_ok.mp h
  refine ⟨wire, mapError_eq_ok.mp hencode, ?_⟩
  cases crypto with
  | none =>
    obtain rfl := Except.ok.inj hwire
    exact ⟨rfl, rfl⟩
  | some crypto =>
    have hseal := mapError_eq_ok.mp hwire
    obtain ⟨ciphertext, _, _, rfl, _⟩ := encryptRecord_ok hseal
    exact ⟨rfl, mapError_eq_ok.mpr (decryptRecord_encryptRecord hseal)⟩

theorem streamRecordText_delta {text : String} (htext : utf8Bytes text = record.plaintextFrame)
    (hdelta : record.recordType = recordTextDelta) : streamRecordText replaced record = text := by
  rw [streamRecordText, if_pos (.inl hdelta), fromUtf8Lossy, ← htext, ofUtf8?_utf8Bytes,
    Option.getD_some]

theorem readRecordFrame_ok (hrecord : decode frame = .ok record)
    {policy : Option UInt32} (hlength : frame.length ≤ frameLenCap policy) :
    readRecordFrame frame (frameLenCap policy) = .ok record := by
  have hcap : frameLenCap policy ≤ quicPreviewMaxFrameLen :=
    Nat.add_le_add_right (effectivePlaintextCap_le policy) _
  have hne : frame.length ≠ 0 := by
    intro hzero
    rw [length_eq_zero_iff.mp hzero] at hrecord
    cases hrecord
  refine bind_eq_ok.mpr ⟨(), ?_, mapError_eq_ok.mpr hrecord⟩
  exact bind_eq_ok.mpr ⟨(), require_eq_ok.mpr hne,
    require_eq_ok.mpr (le_min hlength (hlength.trans hcap))⟩

/-- Within the limit a frame is counted and its number compared. -/
theorem beginRecord_eq (h : Received prims sent init limits k read state) (seq : ℕ)
    (hread : read + 1 ≤ limits.maxRecords.toNat) :
    state.beginRecord seq =
      (if seq ≤ k then .ok false
        else if seq ≠ k + 1 then .error (.unexpectedSequence (k + 1) seq) else .ok true,
        { state with framesRead := read + 1 }) := by
  have hlt := UInt64.toNat_lt limits.maxRecords
  have hmin : min (read + 1) (2 ^ 64 - 1) = read + 1 := min_eq_left (by omega)
  unfold beginRecord
  dsimp only
  rw [h.framesRead, h.bounds, h.highWater, hmin, if_neg (not_lt.mpr hread)]
  split
  · rfl
  · split <;> rfl

/-- A frame that is not above the mark is counted and discarded. -/
theorem Received.replay (h : Received prims sent init limits k read state)
    (hrecord : decode frame = .ok record)
    (hseq : record.seq ≤ state.highWater)
    (hlength : frame.length ≤ frameLenCap (some limits.maxPlaintextFrameLen))
    (hread : read + 1 ≤ limits.maxRecords.toNat) (streamId : List UInt8) :
    ∃ state', state.receiveFrame prims replaced crypto streamId frame = (.ok none, state') ∧
      Received prims sent init limits k (read + 1) state' := by
  refine ⟨{ state with framesRead := read + 1 }, ?_, ?_⟩
  · rw [h.highWater] at hseq
    rw [← h.bounds] at hlength
    rw [receiveFrame, readRecordFrame_ok hrecord hlength]
    dsimp only
    rw [beginRecord_eq h record.seq hread, if_pos hseq]
  · exact ⟨h.count.trans (Nat.le_succ _), h.highWater, rfl, h.bounds, h.text, h.transcript,
      h.limitState⟩

theorem take_succ_eq (hentry : sent[k]? = some entry) :
    sent.take (k + 1) = sent.take k ++ [entry] := by
  rw [take_add_one, hentry]
  rfl

variable (replaced) in
/-- The record of the next frame is accepted. -/
theorem Received.accept (h : Received prims sent init limits k read state)
    (hentry : sent[k]? = some entry) (hseq : entry.record.seq = k + 1)
    (hid : entry.record.streamId = init.streamId)
    (htext : ∃ text, utf8Bytes text = entry.record.plaintextFrame) (hread : k + 1 ≤ read)
    (hrecords : k + 1 ≤ limits.maxRecords.toNat)
    (hbytes : plaintextBytes sent (k + 1) ≤ limits.maxPlaintextBytes.toNat) :
    ∃ chunk state', state.acceptRecord prims replaced entry.record init.streamId =
        (.ok chunk, state') ∧ Received prims sent init limits (k + 1) read state' := by
  have htake := take_succ_eq hentry
  have hsum : plaintextBytes sent (k + 1) =
      plaintextBytes sent k + entry.record.plaintextFrame.length := by
    rw [plaintextBytes, htake, map_append, sum_append, map_singleton,
      sum_singleton]
    rfl
  have hobserve : state.limitState.observe entry.record =
      .ok ⟨limits, k + 1, plaintextBytes sent (k + 1)⟩ := by
    rw [h.limitState, AgentTextStreamReceiveAccumulator.observe_ok hrecords (hsum ▸ hbytes), hsum]
  rw [acceptRecord, hobserve]
  dsimp only
  rw [if_neg (not_not.mpr hid)]
  refine ⟨_, _, rfl, hread, hseq, h.framesRead, h.bounds, ?_, ?_, rfl⟩
  · obtain ⟨text, htext⟩ := htext
    rw [htake, deltaBytes_append, ← h.text]
    have hlast : deltaBytes [entry] =
        deltaFrame (entry.record.recordType, entry.record.plaintextFrame) :=
      flatMap_singleton _ _
    rw [hlast, deltaFrame]
    dsimp only
    split
    · rename_i hdelta
      rw [utf8Bytes_append, streamRecordText_delta htext hdelta, htext]
    · rw [append_nil]
  · rw [htake, map_append, AgentTextStreamTranscriptV1.appendRecords_append, ← h.transcript]
    rfl

/-- The frame of the next record brings the receiver on by one. -/
theorem Received.next (h : Received prims sent init limits k read state)
    (hlog : Log prims crypto init sent) (hentry : sent[k]? = some entry)
    (hlength : entry.frame.length ≤ frameLenCap (some limits.maxPlaintextFrameLen))
    (hread : read + 1 ≤ limits.maxRecords.toNat)
    (hbytes : plaintextBytes sent (k + 1) ≤ limits.maxPlaintextBytes.toNat) :
    ∃ chunk state', state.receiveFrame prims replaced crypto init.streamId entry.frame =
        (.ok (some chunk), state') ∧
      Received prims sent init limits (k + 1) (read + 1) state' := by
  obtain ⟨hseq, hid, htext, hframe, _⟩ := hlog.get hentry
  obtain ⟨wire, hencode, hwireSeq, hopen⟩ := wireFrame_ok hframe
  have hlt := UInt64.toNat_lt limits.maxRecords
  have hcount := h.count
  -- The numbers have not wrapped: every record took a frame.
  rw [Nat.mod_eq_of_lt (by omega)] at hseq
  have hdecode := decode_encode hencode (by omega)
  have hcounted : Received prims sent init limits k (read + 1)
      { state with framesRead := read + 1 } :=
    ⟨hcount.trans (Nat.le_succ _), h.highWater, rfl, h.bounds, h.text, h.transcript, h.limitState⟩
  obtain ⟨chunk, state', haccept, hreceived⟩ := hcounted.accept replaced hentry hseq
    hid htext (by omega) (by omega) hbytes
  refine ⟨chunk, state', ?_, hreceived⟩
  rw [← h.bounds] at hlength
  rw [receiveFrame, readRecordFrame_ok hdecode hlength]
  dsimp only
  rw [beginRecord_eq h wire.seq hread, hwireSeq, hseq, if_neg (by omega),
    if_neg (not_not.mpr rfl)]
  dsimp only
  rw [hopen]
  dsimp only
  rw [haccept]

variable {frames : List (List UInt8)} {streamId : List UInt8}

theorem Delivers.le (h : Delivers prims replaced crypto streamId sent state k frames n) :
    k ≤ n := by
  induction h with
  | done => exact le_rfl
  | next _ _ ih => exact (Nat.le_succ _).trans ih
  | replay _ _ _ ih => exact ih

theorem plaintextBytes_mono (sent : List SentRecord) (hle : k ≤ n) :
    plaintextBytes sent k ≤ plaintextBytes sent n :=
  ((take_sublist_take_left hle).map _).sum_le_sum fun _ _ => Nat.zero_le _

variable {state' : BrokerTextReceiverState}

/-- A frame that is read, and then the rest. -/
theorem receiveConnection_cons {streamId frame : List UInt8} {chunk : Option ReceivedTextChunk}
    (heq : state.receiveFrame prims replaced crypto streamId frame = (.ok chunk, state'))
    (hrest : ∃ state'', state'.receiveConnection prims replaced crypto streamId frames =
      (.ok (), state'') ∧ Received prims sent init limits n (read + 1 + frames.length) state'') :
    ∃ state'', state.receiveConnection prims replaced crypto streamId (frame :: frames) =
      (.ok (), state'') ∧
        Received prims sent init limits n (read + (frame :: frames).length) state'' := by
  obtain ⟨state'', hconnection, hend⟩ := hrest
  refine ⟨state'', ?_, ?_⟩
  · rw [receiveConnection, heq]
    exact hconnection
  · rw [length_cons, Nat.add_comm frames.length, ← Nat.add_assoc]
    exact hend

/-- Deliveries within the limits are all read, and bring the receiver to the records
delivered. -/
theorem Delivers.received (h : Delivers prims replaced crypto init.streamId sent state k frames n)
    (hlog : Log prims crypto init sent) (hstate : Received prims sent init limits k read state)
    (hread : read + frames.length ≤ limits.maxRecords.toNat)
    (hlength : ∀ frame ∈ frames, frame.length ≤ frameLenCap (some limits.maxPlaintextFrameLen))
    (hbytes : plaintextBytes sent n ≤ limits.maxPlaintextBytes.toNat) :
    ∃ state', state.receiveConnection prims replaced crypto init.streamId frames =
        (.ok (), state') ∧ Received prims sent init limits n (read + frames.length) state' := by
  induction h generalizing read with
  | done state k => exact ⟨state, rfl, hstate⟩
  | @next state k n entry frames hentry hrest ih =>
    rw [length_cons] at hread
    have hpart := (plaintextBytes_mono sent hrest.le).trans hbytes
    obtain ⟨chunk, state', heq, hreceived⟩ := hstate.next hlog hentry
      (hlength _ (.head _)) (by omega) hpart
    rw [heq] at ih
    exact receiveConnection_cons heq (ih hreceived (by omega)
      (fun frame hframe => hlength frame (.tail _ hframe)) hbytes)
  | @replay state k n frame frames record hrecord hseq hrest ih =>
    rw [length_cons] at hread
    obtain ⟨state', heq, hreceived⟩ := hstate.replay hrecord hseq (hlength _ (.head _))
      (by omega) init.streamId
    rw [heq] at ih
    exact receiveConnection_cons heq (ih hreceived (by omega)
      (fun frame hframe => hlength frame (.tail _ hframe)) hbytes)

/-- What was read of two runs of frames without an error was read of the first. -/
theorem receiveConnection_append {frames frames' : List (List UInt8)}
    (h : state.receiveConnection prims replaced crypto streamId (frames ++ frames') =
      (.ok (), state')) :
    ((state.receiveConnection prims replaced crypto streamId frames).2.receiveConnection prims
      replaced crypto streamId frames') = (.ok (), state') := by
  induction frames generalizing state with
  | nil => exact h
  | cons frame frames ih =>
    rw [cons_append, receiveConnection] at h
    rw [receiveConnection]
    generalize state.receiveFrame prims replaced crypto streamId frame = result at h ⊢
    obtain ⟨outcome, state''⟩ := result
    cases outcome with
    | error e => cases h
    | ok chunk => exact ih h

/-- Frames that are all read may come over any number of connections. -/
theorem receiveAll_eq {connections : List (List (List UInt8))}
    (h : state.receiveConnection prims replaced crypto streamId connections.flatten =
      (.ok (), state')) : state.receiveAll prims replaced crypto streamId connections = state' := by
  induction connections generalizing state with
  | nil => exact (Prod.mk.inj h).2
  | cons frames connections ih => exact ih (receiveConnection_append h)

end Receive

/-! ### Agreement -/

/-- The publisher's transcript after its first `n` records. -/
def transcriptAfter (init : AgentTextStreamTranscriptV1) (sent : List SentRecord) (n : ℕ) :
    AgentTextStreamTranscriptV1 :=
  ((sent.take n).getLast?.map SentRecord.transcript).getD init

/-- The number of the last of the publisher's first `n` records. -/
def highWaterAfter (sent : List SentRecord) (n : ℕ) : ℕ :=
  ((sent.take n).getLast?.map fun entry => entry.record.seq).getD 0

section Agreement

variable {prims : StreamPrimitives} {crypto : Option AgentTextStreamCrypto}
  {init : AgentTextStreamTranscriptV1} {sent : List SentRecord} {n : ℕ}

theorem Delivers.le_length {replaced : List UInt8 → String} {streamId : List UInt8}
    {state : BrokerTextReceiverState} {k : ℕ} {frames : List (List UInt8)}
    (h : Delivers prims replaced crypto streamId sent state k frames n) (hk : k ≤ sent.length) :
    n ≤ sent.length := by
  induction h with
  | done => exact hk
  | next hentry _ ih =>
    obtain ⟨hlt, _⟩ := List.getElem?_eq_some_iff.mp hentry
    exact ih hlt
  | replay _ _ _ ih => exact ih hk

/-- The publisher's transcript and number after a record are those of the log. -/
theorem Log.after (h : Log prims crypto init sent) (hn : n ≤ sent.length) (hlt : n < 2 ^ 64) :
    transcriptAfter init sent n =
        init.appendRecords prims.sha ((sent.take n).map SentRecord.record) ∧
      highWaterAfter sent n = n := by
  cases n with
  | zero => exact ⟨rfl, rfl⟩
  | succ k =>
    have hget : sent[k]? = some sent[k] := getElem?_eq_getElem hn
    obtain ⟨hseq, _, _, _, htranscript⟩ := h.get hget
    have hlast : (sent.take (k + 1)).getLast? = some sent[k] := by
      rw [take_succ_eq hget, getLast?_concat]
    rw [transcriptAfter, highWaterAfter, hlast]
    exact ⟨htranscript, hseq.trans (Nat.mod_eq_of_lt hlt)⟩

/-- A publisher on a fresh stream makes any sequence of calls, and the frames it wrote are
delivered over any connections, each the next one or any frame that is not above the
receiver's high-water mark, within the receiver's limits.

Then all frames are read; the receiver's text is that of the records delivered, and its
transcript, chunk count and high-water mark are those the publisher had after them.  Once
all are delivered they are the publisher's own, and the text is that of the calls, if none
of them failed. -/
theorem receiver_agrees (prims : StreamPrimitives) (replaced : List UInt8 → String)
    (config : OpenBrokerTextPublisher) (calls : List AppendCall)
    (limits : AgentTextStreamReceiveLimits) (connections : List (List (List UInt8))) (n : ℕ)
    (hfresh : ∀ crypto table, config.crypto = some crypto → config.store = some table →
      table.get? (prims.sha.digest crypto.context.encode) = none)
    (hdelivers : Delivers prims replaced config.crypto config.streamId
      ((BrokerTextPublisher.connect prims config).appendAll prims calls).2.send.sent
      (.new prims config.streamId config.startEventId limits) 0 connections.flatten n)
    (hrecords : connections.flatten.length ≤ limits.maxRecords.toNat)
    (hframes : ∀ frame ∈ connections.flatten,
      frame.length ≤ frameLenCap (some limits.maxPlaintextFrameLen))
    (hbytes : plaintextBytes
      ((BrokerTextPublisher.connect prims config).appendAll prims calls).2.send.sent n ≤
        limits.maxPlaintextBytes.toNat) :
    let results := ((connect prims config).appendAll prims calls).1
    let publisher := ((connect prims config).appendAll prims calls).2
    let receiver := (new prims config.streamId config.startEventId
      limits).receiveAll prims replaced config.crypto config.streamId connections
    let after := transcriptAfter (.new prims.sha config.streamId config.startEventId)
      publisher.send.sent n
    receiver.framesRead = connections.flatten.length ∧
    utf8Bytes receiver.text = deltaBytes (publisher.send.sent.take n) ∧
    receiver.transcript.hash = after.hash ∧ receiver.transcript.chunkCount = after.chunkCount ∧
    receiver.highWater = highWaterAfter publisher.send.sent n ∧
    (n = publisher.send.sent.length →
      receiver.transcript.hash = publisher.transcript.hash ∧
      receiver.transcript.chunkCount = publisher.transcript.chunkCount ∧
      receiver.highWater = publisher.transcript.chunkCount ∧
      ((∀ result ∈ results, ∃ appended, result = .ok appended) →
        receiver.text = deltaText calls)) := by
  obtain ⟨hok, hcrypto, htext⟩ := (PublisherOk.connect prims config hfresh).run rfl calls
  have hlog := hok.log
  rw [hcrypto] at hlog
  have hstart : Received prims
      ((connect prims config).appendAll prims calls).2.send.sent
      (.new prims.sha config.streamId config.startEventId) limits 0 0
      (.new prims config.streamId config.startEventId limits) :=
    ⟨le_rfl, rfl, rfl, rfl, rfl, rfl, rfl⟩
  obtain ⟨receiver, hconnection, hreceived⟩ := hdelivers.received hlog hstart
    ((Nat.zero_add _).trans_le hrecords) hframes hbytes
  have hlt : n < 2 ^ 64 := by
    have := UInt64.toNat_lt limits.maxRecords
    have := hreceived.count
    omega
  obtain ⟨hafter, hhigh⟩ := hlog.after (hdelivers.le_length (Nat.zero_le _)) hlt
  have hreceiver : (new prims config.streamId config.startEventId
      limits).receiveAll prims replaced config.crypto config.streamId connections = receiver :=
    receiveAll_eq hconnection
  dsimp only
  rw [hreceiver, hafter, hhigh]
  refine ⟨hreceived.framesRead.trans (Nat.zero_add _), hreceived.text,
    congrArg _ hreceived.transcript, congrArg _ hreceived.transcript, hreceived.highWater, ?_⟩
  intro hall
  have htake : ((connect prims config).appendAll prims calls).2.send.sent.take
      n = ((connect prims config).appendAll prims calls).2.send.sent :=
    take_of_length_le hall.ge
  have htranscript : receiver.transcript =
      ((connect prims config).appendAll prims calls).2.transcript := by
    rw [hreceived.transcript, htake, ← hok.transcript]
  refine ⟨congrArg _ htranscript, congrArg _ htranscript, ?_, ?_⟩
  · rw [← htranscript, hreceived.transcript, hreceived.highWater,
      AgentTextStreamTranscriptV1.appendRecords_chunkCount, length_map, htake, ← hall]
    exact (Nat.zero_add _).symm
  · intro hresults
    refine utf8Bytes_injective ?_
    rw [hreceived.text, htake, htext hresults]
    rfl

end Agreement

namespace TextStreamSample

/-- A cipher that appends a tag of zeros. -/
def plainCipher : ChaCha20Poly1305 where
  encrypt _ _ _ msg := some (msg ++ List.replicate 16 0)
  decrypt _ _ _ ciphertext := some (ciphertext.take (ciphertext.length - 16))
  length_encrypt := by
    intro key nonce aad msg ciphertext h
    rw [← Option.some.inj h, List.length_append, List.length_replicate]
  decrypt_encrypt := by
    intro key nonce aad msg ciphertext h
    rw [← Option.some.inj h, List.length_append, List.length_replicate, Nat.add_sub_cancel,
      List.take_left']
    rfl

theorem length_zeros (_ikm _info : List UInt8) (n : ℕ) (key : List UInt8)
    (h : (Except.ok (replicate n 0) : Except String (List UInt8)) = .ok key) :
    key.length = n := by
  rw [← Except.ok.inj h, length_replicate]

def prims : StreamPrimitives where
  sha := ⟨fun bytes => beBytes 32 (ofBeBytes bytes)⟩
  hkdf := ⟨fun _ _ n => .ok (List.replicate n 0), length_zeros⟩
  cipher := plainCipher

def config : OpenBrokerTextPublisher := ⟨[1], [2], none, none, none⟩

/-- A text of two characters in chunks below the size of the first one. -/
def calls : List AppendCall := [⟨recordTextDelta, "éa", 1, [], 2⟩]

def transcript : AgentTextStreamTranscriptV1 :=
  (AgentTextStreamTranscriptV1.new prims.sha [1] [2]).append prims.sha 1 recordTextDelta [195, 169]

def first : SentRecord where
  record := .new [1] 1 recordTextDelta [195, 169]
  frame := [1, 1, 1, 0, 0, 0, 0, 0, 0, 0, 1, 1, 0, 2, 195, 169]
  transcript := transcript

def second : SentRecord where
  record := .new [1] 2 recordTextDelta [97]
  frame := [1, 1, 1, 0, 0, 0, 0, 0, 0, 0, 2, 1, 0, 1, 97]
  transcript := transcript.append prims.sha 2 recordTextDelta [97]

def limits : AgentTextStreamReceiveLimits := ⟨10, 100, 0⟩

/-- The first frame comes again on the second connection. -/
def connections : List (List (List UInt8)) := [[first.frame], [first.frame, second.frame]]

theorem sent_calls : ((connect prims config).appendAll prims
    calls).2.send.sent = [first, second] := by
  decide +kernel

theorem results_calls : ((connect prims config).appendAll prims calls).1 =
    [.ok 2] := by
  decide +kernel

theorem delivers_calls : Delivers prims (fun _ => "") none [1] [first, second]
    (.new prims [1] [2] limits) 0 connections.flatten 2 := by
  have hdecode : decode first.frame = .ok first.record := by
    decide +kernel
  change Delivers _ _ _ _ _ _ 0 (first.frame :: first.frame :: second.frame :: []) 2
  refine .next rfl (.replay hdecode ?_ (.next rfl (.done _ _)))
  decide +kernel

theorem receiver_agrees_accented :
    connections.flatten.length ≤ limits.maxRecords.toNat ∧
    ((BrokerTextReceiverState.new prims [1] [2] limits).receiveAll prims (fun _ => "") none [1]
      connections).text = "éa" := by
  have hrecords : connections.flatten.length ≤ limits.maxRecords.toNat := by decide +kernel
  have hagree := receiver_agrees prims (fun _ => "") config calls limits connections 2
    (fun _ _ hcrypto => by cases hcrypto) (by rw [sent_calls]; exact delivers_calls) hrecords
    (by decide +kernel) (by rw [sent_calls]; decide +kernel)
  obtain ⟨_, _, _, _, _, hall⟩ := hagree
  have htext := (hall (by rw [sent_calls]; rfl)).2.2.2 (by
    intro result hresult
    rw [results_calls] at hresult
    exact ⟨2, mem_singleton.mp hresult⟩)
  refine ⟨hrecords, htext.trans ?_⟩
  decide +kernel

end TextStreamSample

end Mdk
