/-
Records of a text stream on the wire: framing, sealing and the limits of a receiver.

A record is written as its version, the stream id, the sequence number, the type, the flags
and the frame.  On an encrypted stream the frame is sealed with the other fields as
associated data, so that everything but the frame is readable without the key.

* `record_read_iff_written` — a record is read from what it is written as, and nothing else;
* `decryptRecord_encryptRecord` — a record that was sealed is opened again;
* `encryptRecord_ok` — sealing leaves all but the frame alone.
-/
import Mdk.PublisherSequence

namespace Mdk

open Checks List

/-! ### Framing -/

def recordVersion : UInt8 := 0x01

namespace AgentTextStreamRecordV1

/-- The exact length of an encoded record. -/
def encodedLen (record : AgentTextStreamRecordV1) :
    Except AgentTextStreamRecordError ℕ := do
  record.validate
  pure (1 + quicVarintEncodedLen record.streamId.length + record.streamId.length + 8 + 1 + 1 +
    quicVarintEncodedLen record.plaintextFrame.length + record.plaintextFrame.length)

def encode (record : AgentTextStreamRecordV1) : Except AgentTextStreamRecordError (List UInt8) := do
  let _ ← record.encodedLen
  pure (recordVersion :: (encodeVarBytes record.streamId ++ (beBytes 8 record.seq ++
    (record.recordType :: record.flags :: encodeVarBytes record.plaintextFrame))))

def takeExact (bytes : List UInt8) (len : ℕ) (field : String) :
    Except AgentTextStreamRecordError (List UInt8 × List UInt8) := do
  require (len ≤ bytes.length) (.truncated field)
  pure (bytes.take len, bytes.drop len)

def takeLenPrefixed (bytes : List UInt8) (field : String) :
    Except AgentTextStreamRecordError (List UInt8 × List UInt8) := do
  let (len, prefixLen) ← (decodeQuicVarint bytes).mapError (.lengthDecode field)
  takeExact (bytes.drop prefixLen) len field

def takeVersion : List UInt8 → Except AgentTextStreamRecordError (UInt8 × List UInt8)
  | [] => .error (.truncated "version")
  | version :: rest => .ok (version, rest)

def decode (bytes : List UInt8) : Except AgentTextStreamRecordError AgentTextStreamRecordV1 := do
  let (version, rest) ← takeVersion bytes
  require (version = recordVersion) (.unsupportedVersion version)
  let (streamId, rest) ← takeLenPrefixed rest "stream_id"
  let (seqBytes, rest) ← takeExact rest 8 "seq"
  let (recordTypeBytes, rest) ← takeExact rest 1 "record_type"
  let (flagsBytes, rest) ← takeExact rest 1 "flags"
  let (plaintextFrame, rest) ← takeLenPrefixed rest "plaintext_frame"
  require (rest = []) (.trailingBytes rest.length)
  let record : AgentTextStreamRecordV1 :=
    ⟨streamId, ofBeBytes seqBytes, recordTypeBytes.headD 0, flagsBytes.headD 0, plaintextFrame⟩
  record.validate
  pure record

theorem takeExact_append {bytes rest : List UInt8} {len : ℕ} (h : bytes.length = len)
    (field : String) : takeExact (bytes ++ rest) len field = .ok (bytes, rest) := by
  subst h
  simp only [takeExact, bind_eq_ok, require_eq_ok, pure_eq_ok, length_append,
    Nat.le_add_right, take_left', drop_left', true_and, exists_const]

theorem takeExact_cons (b : UInt8) (rest : List UInt8) (field : String) :
    takeExact (b :: rest) 1 field = .ok ([b], rest) :=
  @takeExact_append [b] rest 1 rfl field

variable {bytes : List UInt8}

theorem takeLenPrefixed_append (h : bytes.length < 2 ^ 62) (rest : List UInt8) (field : String) :
    takeLenPrefixed (encodeVarBytes bytes ++ rest) field = .ok (bytes, rest) := by
  rw [takeLenPrefixed, encodeVarBytes, append_assoc, decodeQuicVarint_encode h]
  have hdrop : (encodeQuicVarint bytes.length ++ (bytes ++ rest)).drop
      (quicVarintEncodedLen bytes.length) = bytes ++ rest :=
    drop_left' (length_encodeQuicVarint h)
  change takeExact (drop _ _) _ _ = _
  rw [hdrop]
  exact takeExact_append rfl field

variable {record : AgentTextStreamRecordV1}

/-- What a valid record is. -/
theorem validate_ok :
    record.validate = .ok () ↔ record.streamId ≠ [] ∧
      record.streamId.length ≤ maxStreamIdLen ∧
      record.plaintextFrame.length ≤ maxRecordCiphertextLen := by
  simp only [validate, bind_eq_ok, require_eq_ok, exists_const]

theorem encode_ok :
    record.encode = .ok bytes ↔ record.validate = .ok () ∧
      bytes = recordVersion :: (encodeVarBytes record.streamId ++ (beBytes 8 record.seq ++
        (record.recordType :: record.flags :: encodeVarBytes record.plaintextFrame))) := by
  simp only [encode, encodedLen, bind_eq_ok, pure_eq_ok]
  constructor
  · rintro ⟨_, ⟨_, hvalid, _⟩, rfl⟩
    exact ⟨hvalid, rfl⟩
  · rintro ⟨hvalid, rfl⟩
    exact ⟨_, ⟨(), hvalid, rfl⟩, rfl⟩

/-- A record that was written is read back. -/
theorem decode_encode (h : record.encode = .ok bytes) (hseq : record.seq < 2 ^ 64) :
    decode bytes = .ok record := by
  obtain ⟨hvalid, rfl⟩ := encode_ok.mp h
  obtain ⟨_, hid, hframe⟩ := validate_ok.mp hvalid
  have hid62 : record.streamId.length < 2 ^ 62 := lt_of_le_of_lt hid (by decide)
  have hframe62 : record.plaintextFrame.length < 2 ^ 62 := lt_of_le_of_lt hframe (by decide)
  have hread := takeLenPrefixed_append hframe62 [] "plaintext_frame"
  rw [append_nil] at hread
  have hback : ofBeBytes (beBytes 8 record.seq) = record.seq := by
    rw [ofBeBytes_beBytes]
    exact Nat.mod_eq_of_lt (lt_of_lt_of_eq hseq (by norm_num))
  simp only [decode, takeVersion, bind_eq_ok, require_eq_ok, pure_eq_ok, Prod.exists]
  refine ⟨_, _, rfl, (), rfl, _, _, takeLenPrefixed_append hid62 _ _, _, _,
    takeExact_append (length_beBytes 8 _) _, _, _, takeExact_cons _ _ _, _, _,
    takeExact_cons _ _ _, _, _, hread, (), rfl, ?_⟩
  simp only [hback, headD_cons]
  exact ⟨(), hvalid, trivial⟩

variable {value rest : List UInt8} {field : String}

theorem takeExact_ok {len : ℕ} (h : takeExact bytes len field = .ok (value, rest)) :
    bytes = value ++ rest ∧ value.length = len := by
  simp only [takeExact, bind_eq_ok, require_eq_ok, pure_eq_ok, Prod.mk.injEq, exists_const] at h
  obtain ⟨hlen, rfl, rfl⟩ := h
  exact ⟨(take_append_drop _ _).symm, length_take_of_le hlen⟩

theorem takeLenPrefixed_ok (h : takeLenPrefixed bytes field = .ok (value, rest)) :
    bytes = encodeVarBytes value ++ rest := by
  simp only [takeLenPrefixed, bind_eq_ok, mapError_eq_ok, Prod.exists] at h
  obtain ⟨len, width, hread, htake⟩ := h
  obtain ⟨hdrop, rfl⟩ := takeExact_ok htake
  rw [encodeVarBytes, append_assoc, ← hdrop]
  exact (decodeQuicVarint_ok hread).2.2

/-- A record that was read is written as it was read. -/
theorem encode_of_decode (h : decode bytes = .ok record) :
    record.encode = .ok bytes ∧ record.seq < 2 ^ 64 := by
  simp only [decode, bind_eq_ok, require_eq_ok, pure_eq_ok, Prod.exists] at h
  obtain ⟨_, _, hversion, _, rfl, _, _, hid, seq, _, hseq, _, _, htype, _, _, hflags, _, _,
    hframe, _, rfl, _, hvalid, rfl⟩ := h
  obtain ⟨hseq, hwidth⟩ := takeExact_ok hseq
  obtain ⟨htype, htypeLen⟩ := takeExact_ok htype
  obtain ⟨hflags, hflagsLen⟩ := takeExact_ok hflags
  obtain ⟨t, rfl⟩ := length_eq_one_iff.mp htypeLen
  obtain ⟨f, rfl⟩ := length_eq_one_iff.mp hflagsLen
  have hself := beBytes_ofBeBytes seq
  have hlt := ofBeBytes_lt seq
  rw [hwidth] at hself hlt
  refine ⟨encode_ok.mpr ⟨hvalid, ?_⟩, hlt⟩
  cases bytes with
  | nil => cases hversion
  | cons v tail =>
    cases hversion
    rw [takeLenPrefixed_ok hid, hseq, htype, hflags, takeLenPrefixed_ok hframe, hself]
    simp

/-- **A record has exactly one encoding, and only its encoding is read as it.** -/
theorem record_read_iff_written :
    decode bytes = .ok record ↔ record.encode = .ok bytes ∧ record.seq < 2 ^ 64 :=
  ⟨encode_of_decode, fun h => decode_encode h.1 h.2⟩

end AgentTextStreamRecordV1

/-! ### Sealing -/

/-- An authenticated cipher: key, nonce, associated data and message.  What was encrypted
is decrypted again, and is longer by the tag. -/
structure ChaCha20Poly1305 where
  encrypt : List UInt8 → List UInt8 → List UInt8 → List UInt8 → Option (List UInt8)
  decrypt : List UInt8 → List UInt8 → List UInt8 → List UInt8 → Option (List UInt8)
  length_encrypt : ∀ {key nonce aad msg ciphertext}, encrypt key nonce aad msg = some ciphertext →
    ciphertext.length = msg.length + 16
  decrypt_encrypt : ∀ {key nonce aad msg ciphertext}, encrypt key nonce aad msg = some ciphertext →
    decrypt key nonce aad ciphertext = some msg

def aeadTagLen : ℕ := 16

def agentTextStreamSecretLen : ℕ := 32

def profileStreamIdLen : ℕ := 32

def startEventIdLen : ℕ := 32

def validateCryptoRecordContext (crypto : AgentTextStreamCrypto)
    (record : AgentTextStreamRecordV1) : Except QuicTextStreamError Unit := do
  require (crypto.streamSecret.length = agentTextStreamSecretLen)
    (.crypto "agent text stream secret must be 32 bytes")
  require (crypto.context.streamId.length = profileStreamIdLen)
    (.crypto "agent text stream id must be 32 bytes")
  require (crypto.context.startEventId.length = startEventIdLen)
    (.crypto "agent text stream start event id must be 32 bytes")
  require (crypto.context.streamId = record.streamId) .mixedStreamIds

/-- The associated data: all fields of the record but the frame, and the context. -/
def recordAad (sha : Sha256) (crypto : AgentTextStreamCrypto) (record : AgentTextStreamRecordV1) :
    List UInt8 :=
  recordVersion :: (sha.digest crypto.context.groupId ++ (encodeVarBytes record.streamId ++
    (beBytes 8 crypto.context.mlsEpoch.toNat ++ (encodeVarBytes crypto.context.senderId ++
      (beBytes 8 record.seq ++ [record.recordType, record.flags])))))

/-- The hash, the key derivation and the cipher of the streams. -/
structure StreamPrimitives where
  sha : Sha256
  hkdf : Hkdf
  cipher : ChaCha20Poly1305

variable (prims : StreamPrimitives)

def encryptRecord (crypto : AgentTextStreamCrypto) (record : AgentTextStreamRecordV1) :
    Except QuicTextStreamError AgentTextStreamRecordV1 := do
  validateCryptoRecordContext crypto record
  require (record.plaintextFrame.length ≤ maxPlaintextFrameLen)
    (.encryptedFrameTooLarge record.plaintextFrame.length)
  let key ← (deriveRecordKey prims.hkdf crypto).mapError .crypto
  let nonce ← (deriveRecordNonce prims.hkdf crypto record.seq).mapError .crypto
  match prims.cipher.encrypt key nonce (recordAad prims.sha crypto record)
      record.plaintextFrame with
  | some ciphertext => pure { record with plaintextFrame := ciphertext }
  | none => throw (.crypto "record encryption failed")

def decryptRecord (crypto : AgentTextStreamCrypto) (record : AgentTextStreamRecordV1) :
    Except QuicTextStreamError AgentTextStreamRecordV1 := do
  validateCryptoRecordContext crypto record
  require (aeadTagLen ≤ record.plaintextFrame.length)
    (.crypto "encrypted record frame is shorter than the AEAD tag")
  let key ← (deriveRecordKey prims.hkdf crypto).mapError .crypto
  let nonce ← (deriveRecordNonce prims.hkdf crypto record.seq).mapError .crypto
  match prims.cipher.decrypt key nonce (recordAad prims.sha crypto record)
      record.plaintextFrame with
  | some plaintext => pure { record with plaintextFrame := plaintext }
  | none => throw (.crypto "record decryption failed")

variable {prims}

theorem encryptRecord_ok {crypto : AgentTextStreamCrypto}
    {record wire : AgentTextStreamRecordV1} (h : encryptRecord prims crypto record = .ok wire) :
    ∃ ciphertext key nonce, wire = { record with plaintextFrame := ciphertext } ∧
      validateCryptoRecordContext crypto record = .ok () ∧
      deriveRecordKey prims.hkdf crypto = .ok key ∧
      deriveRecordNonce prims.hkdf crypto record.seq = .ok nonce ∧
      prims.cipher.encrypt key nonce (recordAad prims.sha crypto record)
        record.plaintextFrame = some ciphertext := by
  simp only [encryptRecord, bind_eq_ok, require_eq_ok, mapError_eq_ok] at h
  obtain ⟨_, hvalid, _, _, key, hkey, nonce, hnonce, hwire⟩ := h
  split at hwire
  · rename_i ciphertext hcipher
    exact ⟨ciphertext, key, nonce, (pure_eq_ok.mp hwire).symm, hvalid, hkey, hnonce, hcipher⟩
  · cases throw_eq_ok.mp hwire

/-- A record that was sealed is opened again. -/
theorem decryptRecord_encryptRecord {crypto : AgentTextStreamCrypto}
    {record wire : AgentTextStreamRecordV1} (h : encryptRecord prims crypto record = .ok wire) :
    decryptRecord prims crypto wire = .ok record := by
  obtain ⟨ciphertext, key, nonce, rfl, hvalid, hkey, hnonce, hcipher⟩ := encryptRecord_ok h
  have hlength := prims.cipher.length_encrypt hcipher
  simp only [decryptRecord, bind_eq_ok, require_eq_ok, mapError_eq_ok]
  refine ⟨(), hvalid, (), ?_, key, hkey, nonce, hnonce, ?_⟩
  · rw [hlength]
    exact Nat.le_add_left _ _
  · have hopen : prims.cipher.decrypt key nonce
        (recordAad prims.sha crypto { record with plaintextFrame := ciphertext }) ciphertext =
          some record.plaintextFrame := prims.cipher.decrypt_encrypt hcipher
    rw [hopen]
    rfl

/-! ### Limits -/

/-- The limits of a receiver; a `usize` has 64 bits. -/
structure AgentTextStreamReceiveLimits where
  maxRecords : UInt64
  maxPlaintextBytes : UInt64
  maxPlaintextFrameLen : UInt32
deriving DecidableEq, Repr

inductive AgentTextStreamReceiveLimitError where
  | recordLimitExceeded (attempted limit : ℕ)
  | plaintextByteLimitExceeded (attempted limit : ℕ)
deriving DecidableEq, Repr

structure AgentTextStreamReceiveAccumulator where
  limits : AgentTextStreamReceiveLimits
  records : ℕ
  plaintextBytes : ℕ
deriving DecidableEq, Repr

namespace AgentTextStreamReceiveAccumulator

def new (limits : AgentTextStreamReceiveLimits) : AgentTextStreamReceiveAccumulator :=
  ⟨limits, 0, 0⟩

/-- Count an accepted record, with checked additions. -/
def observe (acc : AgentTextStreamReceiveAccumulator) (record : AgentTextStreamRecordV1) :
    Except AgentTextStreamReceiveLimitError AgentTextStreamReceiveAccumulator := do
  let records := acc.records + 1
  require (records < 2 ^ 64) (.recordLimitExceeded (2 ^ 64 - 1) acc.limits.maxRecords.toNat)
  require (records ≤ acc.limits.maxRecords.toNat)
    (.recordLimitExceeded records acc.limits.maxRecords.toNat)
  let plaintextBytes := acc.plaintextBytes + record.plaintextFrame.length
  require (plaintextBytes < 2 ^ 64)
    (.plaintextByteLimitExceeded (2 ^ 64 - 1) acc.limits.maxPlaintextBytes.toNat)
  require (plaintextBytes ≤ acc.limits.maxPlaintextBytes.toNat)
    (.plaintextByteLimitExceeded plaintextBytes acc.limits.maxPlaintextBytes.toNat)
  pure { acc with records := records, plaintextBytes := plaintextBytes }

/-- Within the limits no check fails. -/
theorem observe_ok {acc : AgentTextStreamReceiveAccumulator} {record : AgentTextStreamRecordV1}
    (hrecords : acc.records + 1 ≤ acc.limits.maxRecords.toNat)
    (hbytes : acc.plaintextBytes + record.plaintextFrame.length ≤
      acc.limits.maxPlaintextBytes.toNat) :
    acc.observe record = .ok { acc with
      records := acc.records + 1
      plaintextBytes := acc.plaintextBytes + record.plaintextFrame.length } := by
  simp only [observe, bind_eq_ok, require_eq_ok, pure_eq_ok]
  exact ⟨(), lt_of_le_of_lt hrecords (UInt64.toNat_lt _), (), hrecords, (),
    lt_of_le_of_lt hbytes (UInt64.toNat_lt _), (), hbytes, trivial⟩

end AgentTextStreamReceiveAccumulator

def frameAllowance : ℕ := 1024

def quicPreviewMaxFrameLen : ℕ := maxPlaintextFrameLen + frameAllowance

variable (policy : Option UInt32)

/-- The policy bound, with the bound of the profile as ceiling and default. -/
def effectivePlaintextCap : ℕ :=
  ((policy.filter (0 < ·)).map fun len => min len.toNat maxPlaintextFrameLen).getD
    maxPlaintextFrameLen

def frameLenCap : ℕ := effectivePlaintextCap policy + frameAllowance

theorem effectivePlaintextCap_le : effectivePlaintextCap policy ≤ maxPlaintextFrameLen := by
  unfold effectivePlaintextCap
  cases policy.filter (0 < ·) with
  | none => exact le_rfl
  | some len => exact min_le_right _ _

end Mdk
