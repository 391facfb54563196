/-
The UTF-8 bytes of a string, as a list.

`utf8Bytes` writes a string and `ofUtf8?` reads one; reading succeeds exactly on what was
written.

* `ofUtf8?_eq_some` — the two are inverse;
* `utf8Bytes_injective` — a string is determined by its bytes;
* `ascii_of_utf8Bytes` — a string whose bytes are ASCII has ASCII characters, one for a byte.
-/
import Mathlib

variable (s : String)

/-- The UTF-8 bytes of a string. -/
def utf8Bytes : List UInt8 := s.toByteArray.data.toList

/-- The string with these UTF-8 bytes. -/
def ofUtf8? (bytes : List UInt8) : Option String := String.fromUTF8? ⟨bytes.toArray⟩

theorem toByteArray_eq_iff {s : String} {bytes : List UInt8} :
    s.toByteArray = ⟨bytes.toArray⟩ ↔ utf8Bytes s = bytes := by
  constructor
  · intro h
    rw [utf8Bytes, h]
  · intro h
    rw [← h, utf8Bytes, Array.toArray_toList]

/-- Reading succeeds exactly on the bytes of a string. -/
theorem ofUtf8?_eq_some {bytes : List UInt8} {s : String} :
    ofUtf8? bytes = some s ↔ utf8Bytes s = bytes := by
  rw [← toByteArray_eq_iff, ofUtf8?, String.fromUTF8?]
  constructor
  · intro h
    split at h
    · rw [← Option.some.inj h]
      rfl
    · cases h
  · intro h
    rw [← h, dif_pos s.isValidUTF8]
    rfl

@[simp] theorem ofUtf8?_utf8Bytes : ofUtf8? (utf8Bytes s) = some s :=
  ofUtf8?_eq_some.mpr rfl

theorem utf8Bytes_injective {s t : String} (h : utf8Bytes s = utf8Bytes t) : s = t := by
  have hread := ofUtf8?_utf8Bytes s
  rw [h, ofUtf8?_utf8Bytes] at hread
  exact (Option.some.inj hread).symm

@[simp] theorem utf8Bytes_append (s t : String) :
    utf8Bytes (s ++ t) = utf8Bytes s ++ utf8Bytes t := by
  rw [utf8Bytes, String.toByteArray_append, ByteArray.data_append, Array.toList_append]
  rfl

@[simp] theorem length_utf8Bytes : (utf8Bytes s).length = s.utf8ByteSize := by
  rw [utf8Bytes, Array.length_toList]
  rfl

theorem utf8Bytes_eq_nil_iff {s : String} : utf8Bytes s = [] ↔ s = "" := by
  rw [← List.length_eq_zero_iff, length_utf8Bytes, String.utf8ByteSize_eq_zero_iff]

theorem utf8Bytes_join (texts : List String) :
    utf8Bytes (String.join texts) = (texts.map utf8Bytes).flatten := by
  induction texts with
  | nil => rfl
  | cons text texts ih =>
    rw [String.join_cons, utf8Bytes_append, ih, List.map_cons, List.flatten_cons]

theorem utf8Bytes_eq_flatMap : utf8Bytes s = s.toList.flatMap String.utf8EncodeChar := by
  rw [utf8Bytes, ← String.utf8Encode_toList, List.utf8Encode]
  simp

/-- A character that is encoded in ASCII bytes is its own byte: the first byte of a longer
encoding has its top bit set. -/
theorem utf8EncodeChar_ascii {c : Char} (h : ∀ b ∈ String.utf8EncodeChar c, b.toNat < 128) :
    c.toNat < 128 ∧ String.utf8EncodeChar c = [UInt8.ofNat c.toNat] := by
  have hc : c.toNat = c.val.toNat := rfl
  unfold String.utf8EncodeChar at h ⊢
  dsimp only at h ⊢
  rw [hc]
  split at h
  · rename_i hle
    rw [if_pos hle]
    exact ⟨by omega, rfl⟩
  · split at h
    · have := h _ (.head _)
      rw [UInt8.toNat_ofNat'] at this
      omega
    · split at h
      · have := h _ (.head _)
        rw [UInt8.toNat_ofNat'] at this
        omega
      · have := h _ (.head _)
        rw [UInt8.toNat_ofNat'] at this
        omega

/-- The characters of a string of ASCII bytes are these bytes. -/
theorem ascii_of_utf8Bytes {s : String} (h : ∀ b ∈ utf8Bytes s, b.toNat < 128) {c : Char}
    (hc : c ∈ s.toList) : c.toNat < 128 ∧ UInt8.ofNat c.toNat ∈ utf8Bytes s := by
  rw [utf8Bytes_eq_flatMap] at h ⊢
  have hbytes : ∀ b ∈ String.utf8EncodeChar c, b.toNat < 128 :=
    fun b hb => h b (List.mem_flatMap.mpr ⟨c, hc, hb⟩)
  obtain ⟨hlt, hencode⟩ := utf8EncodeChar_ascii hbytes
  exact ⟨hlt, List.mem_flatMap.mpr ⟨c, hc, by rw [hencode]; exact List.mem_singleton_self _⟩⟩
