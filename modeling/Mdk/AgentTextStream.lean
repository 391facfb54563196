/-
Agent text streams: records, the transcript and the record nonces.

A stream is a sequence of numbered records.  Its transcript is a hash chain over the
records, started from the stream id and the id of the event that opened the stream.  An
encrypted record is sealed under a key derived from the stream's context and a nonce
derived from the context and the sequence number.

* **`deriveRecordNonce_injective`** — under one context, two records with different
  sequence numbers have different nonces.
-/
import Mdk.ComponentCodec

namespace Mdk

open Checks List

abbrev MessageId := List UInt8

/-- The hash, of which nothing is assumed. -/
structure Sha256 where
  digest : List UInt8 → List UInt8

/-! ### Records -/

structure AgentTextStreamRecordV1 where
  streamId : List UInt8
  seq : ℕ
  recordType : UInt8
  flags : UInt8
  plaintextFrame : List UInt8
deriving DecidableEq, Repr

def recordTextDelta : UInt8 := 0x01

def maxStreamIdLen : ℕ := 64

def maxRecordCiphertextLen : ℕ := 65535

def maxPlaintextFrameLen : ℕ := 65519

inductive AgentTextStreamRecordError where
  | truncated (field : String)
  | unsupportedVersion (version : UInt8)
  | trailingBytes (length : ℕ)
  | lengthDecode (field reason : String)
  | emptyStreamId
  | streamIdTooLong (length : ℕ)
  | plaintextFrameTooLarge (length : ℕ)
deriving DecidableEq, Repr

namespace AgentTextStreamRecordV1

def new (streamId : List UInt8) (seq : ℕ) (recordType : UInt8) (plaintextFrame : List UInt8) :
    AgentTextStreamRecordV1 :=
  ⟨streamId, seq, recordType, 0, plaintextFrame⟩

/-- Unknown record types are valid; the frame is bounded by the ciphertext field. -/
def validate (record : AgentTextStreamRecordV1) : Except AgentTextStreamRecordError Unit := do
  require (record.streamId ≠ []) .emptyStreamId
  require (record.streamId.length ≤ maxStreamIdLen) (.streamIdTooLong record.streamId.length)
  require (record.plaintextFrame.length ≤ maxRecordCiphertextLen)
    (.plaintextFrameTooLarge record.plaintextFrame.length)

end AgentTextStreamRecordV1

/-! ### Transcripts -/

structure AgentTextStreamTranscriptV1 where
  streamId : List UInt8
  startEventId : MessageId
  hash : List UInt8
  chunkCount : ℕ
deriving DecidableEq, Repr

namespace AgentTextStreamTranscriptV1

variable (sha : Sha256)

def new (streamId : List UInt8) (startEventId : MessageId) : AgentTextStreamTranscriptV1 where
  streamId := streamId
  startEventId := startEventId
  hash := sha.digest (asciiBytes "marmot agent text stream transcript v1" ++
    (encodeVarBytes streamId ++ encodeVarBytes startEventId))
  chunkCount := 0

/-- The transcript that is continued from stored state. -/
def fromState (streamId : List UInt8) (startEventId : MessageId) (hash : List UInt8)
    (chunkCount : ℕ) : AgentTextStreamTranscriptV1 :=
  ⟨streamId, startEventId, hash, chunkCount⟩

def append (transcript : AgentTextStreamTranscriptV1) (seq : ℕ) (recordType : UInt8)
    (plaintextFrame : List UInt8) : AgentTextStreamTranscriptV1 :=
  { transcript with
    hash := sha.digest (transcript.hash ++ (beBytes 8 seq ++ (recordType :: plaintextFrame)))
    chunkCount := transcript.chunkCount + 1 }

/-- The records appended in order. -/
def appendRecords (transcript : AgentTextStreamTranscriptV1)
    (records : List AgentTextStreamRecordV1) : AgentTextStreamTranscriptV1 :=
  records.foldl (fun t r => t.append sha r.seq r.recordType r.plaintextFrame) transcript

variable {sha} (transcript : AgentTextStreamTranscriptV1)

theorem appendRecords_append (records records' : List AgentTextStreamRecordV1) :
    transcript.appendRecords sha (records ++ records') =
      (transcript.appendRecords sha records).appendRecords sha records' := by
  rw [appendRecords, foldl_append]
  rfl

variable (records : List AgentTextStreamRecordV1)

theorem appendRecords_chunkCount :
    (transcript.appendRecords sha records).chunkCount =
      transcript.chunkCount + records.length := by
  induction records generalizing transcript with
  | nil => rfl
  | cons r records ih =>
    have hcons := ih (transcript.append sha r.seq r.recordType r.plaintextFrame)
    rw [length_cons, Nat.add_comm records.length, ← Nat.add_assoc]
    exact hcons

/-- A continued transcript is of the same stream. -/
theorem appendRecords_ids :
    (transcript.appendRecords sha records).streamId = transcript.streamId ∧
      (transcript.appendRecords sha records).startEventId = transcript.startEventId := by
  induction records generalizing transcript with
  | nil => exact ⟨rfl, rfl⟩
  | cons r records ih => exact ih (transcript.append sha r.seq r.recordType r.plaintextFrame)

/-- The hash of a continued transcript depends on the hash it is continued from alone. -/
theorem appendRecords_hash_congr {t t' : AgentTextStreamTranscriptV1} (h : t.hash = t'.hash)
    (records : List AgentTextStreamRecordV1) :
    (t.appendRecords sha records).hash = (t'.appendRecords sha records).hash := by
  induction records generalizing t t' with
  | nil => exact h
  | cons r records ih =>
    refine @ih (t.append sha r.seq r.recordType r.plaintextFrame)
      (t'.append sha r.seq r.recordType r.plaintextFrame) ?_
    rw [append, append, h]

end AgentTextStreamTranscriptV1

/-! ### Keys and nonces -/

structure AgentTextStreamKeyContextV1 where
  groupId : List UInt8
  streamId : List UInt8
  mlsEpoch : UInt64
  senderId : List UInt8
  startEventId : MessageId
deriving DecidableEq, Repr

def AgentTextStreamKeyContextV1.encode (context : AgentTextStreamKeyContextV1) : List UInt8 :=
  encodeVarBytes (asciiBytes "v1") ++ (encodeVarBytes context.groupId ++
    (encodeVarBytes context.streamId ++ (beBytes 8 context.mlsEpoch.toNat ++
      (encodeVarBytes context.senderId ++ encodeVarBytes context.startEventId))))

/-- HKDF-Expand over SHA-256: secret, info and length to that many bytes. -/
structure Hkdf where
  expand : List UInt8 → List UInt8 → ℕ → Except String (List UInt8)
  length_expand : ∀ secret info n bytes, expand secret info n = .ok bytes → bytes.length = n

structure AgentTextStreamCrypto where
  streamSecret : List UInt8
  context : AgentTextStreamKeyContextV1
deriving DecidableEq, Repr

def deriveBytes (hkdf : Hkdf) (n : ℕ) (crypto : AgentTextStreamCrypto) (label : List UInt8) :
    Except String (List UInt8) :=
  hkdf.expand crypto.streamSecret (encodeVarBytes label ++ crypto.context.encode) n

def deriveRecordKey (hkdf : Hkdf) (crypto : AgentTextStreamCrypto) : Except String (List UInt8) :=
  deriveBytes hkdf 32 crypto (asciiBytes "record key")

/-- The nonce base, with the sequence number as 12 big-endian bytes on top of it. -/
def deriveRecordNonce (hkdf : Hkdf) (crypto : AgentTextStreamCrypto) (seq : ℕ) :
    Except String (List UInt8) := do
  let base ← deriveBytes hkdf 12 crypto (asciiBytes "record nonce")
  pure (List.zipWith (· ^^^ ·) base ((beBytes 16 seq).drop 4))

theorem zipWith_xor_injective {base a b : List UInt8} (ha : a.length = base.length)
    (hb : b.length = base.length)
    (h : zipWith (· ^^^ ·) base a = zipWith (· ^^^ ·) base b) : a = b := by
  induction base generalizing a b with
  | nil => rw [eq_nil_of_length_eq_zero ha, eq_nil_of_length_eq_zero hb]
  | cons x base ih =>
    cases a with
    | nil => cases ha
    | cons y a =>
      cases b with
      | nil => cases hb
      | cons z b =>
        obtain ⟨hhead, htail⟩ := List.cons.inj h
        have hyz : y = z := by
          have hcancel := congrArg (x ^^^ ·) hhead
          simpa [← UInt8.xor_assoc] using hcancel
        rw [hyz, ih (Nat.succ.inj ha) (Nat.succ.inj hb) htail]

/-- Records of one context with different sequence numbers have different nonces. -/
theorem deriveRecordNonce_injective {hkdf : Hkdf} {crypto : AgentTextStreamCrypto} {a b : ℕ}
    {nonce : List UInt8} (ha : a < 2 ^ 64) (hb : b < 2 ^ 64)
    (hna : deriveRecordNonce hkdf crypto a = .ok nonce)
    (hnb : deriveRecordNonce hkdf crypto b = .ok nonce) : a = b := by
  obtain ⟨base, hbase, hna⟩ := bind_eq_ok.mp hna
  obtain ⟨base', hbase', hnb⟩ := bind_eq_ok.mp hnb
  obtain rfl : base = base' := Except.ok.inj (hbase.symm.trans hbase')
  have hlength := hkdf.length_expand _ _ _ _ hbase
  have hbytes : (beBytes 16 a).drop 4 = (beBytes 16 b).drop 4 := by
    refine zipWith_xor_injective ?_ ?_ ((pure_eq_ok.mp hna).trans (pure_eq_ok.mp hnb).symm)
    · rw [length_drop, length_beBytes, hlength]
    · rw [length_drop, length_beBytes, hlength]
  rw [drop_beBytes 4 12, drop_beBytes 4 12] at hbytes
  exact beBytes_injective (ha.trans (by norm_num)) (hb.trans (by norm_num)) hbytes

end Mdk
