/-
Length-prefixed byte strings of the component codecs.

A length is written as a QUIC variable-length integer: the two top bits of the first
byte give the width, one of `1, 2, 4, 8`, and the remaining bits of the `width` bytes
the value.  The reader accepts the shortest form only.

* `decodeQuicVarint_encode`, `decodeQuicVarint_ok` — reading and writing are inverse
  on the values below `2 ^ 62`;
* `decodeVarBytes_eq_ok` — a byte string is read off the cursor exactly if the cursor
  begins with its encoding and it is within the bound of the reader.
-/
import Mdk.AppComponents
import Mdk.Bytes

namespace Mdk

open Checks List

/-! ### QUIC variable-length integers -/

variable (value : ℕ)

/-- The tag of the width goes into the two top bits. -/
def encodeQuicVarint : List UInt8 :=
  if value < 64 then beBytes 1 value
  else if value < 16384 then beBytes 2 (0x4000 ||| value)
  else if value < 1073741824 then beBytes 4 (0x80000000 ||| value)
  else beBytes 8 (0xC000000000000000 ||| value)

/-- The number of bytes of a length. -/
def quicVarintEncodedLen : ℕ :=
  if value < 64 then 1 else if value < 16384 then 2 else if value < 1073741824 then 4 else 8

/-- The two top bits of the first byte of a length. -/
def varintTag : ℕ :=
  if value < 64 then 0 else if value < 16384 then 1 else if value < 1073741824 then 2 else 3

theorem varintTag_lt : varintTag value < 4 := by
  unfold varintTag
  split_ifs <;> decide

theorem quicVarintEncodedLen_eq : quicVarintEncodedLen value = 1 <<< varintTag value := by
  unfold quicVarintEncodedLen varintTag
  split_ifs <;> rfl

/-- The tag and the value share the bytes of a length. -/
theorem encodeQuicVarint_eq {value : ℕ} (h : value < 2 ^ 62) :
    value < 64 * 256 ^ (quicVarintEncodedLen value - 1) ∧
    encodeQuicVarint value = beBytes (quicVarintEncodedLen value)
      (varintTag value * (64 * 256 ^ (quicVarintEncodedLen value - 1)) + value) := by
  unfold encodeQuicVarint quicVarintEncodedLen varintTag
  split_ifs with h1 h2 h3
  · exact ⟨by omega, by norm_num⟩
  · have hor := Nat.two_pow_add_eq_or_of_lt (i := 14) h2 1
    exact ⟨by omega, by rw [← hor]; norm_num⟩
  · have hor := Nat.two_pow_add_eq_or_of_lt (i := 30) h3 2
    exact ⟨by omega, by rw [← hor]; norm_num⟩
  · have hor := Nat.two_pow_add_eq_or_of_lt (i := 62) h 3
    exact ⟨by omega, by rw [← hor]; norm_num⟩

variable (bytes : List UInt8)

theorem foldl_bytes (init : ℕ) :
    bytes.foldl (fun value byte => value * 256 + byte.toNat) init =
      init * 256 ^ bytes.length + ofBeBytes bytes := by
  induction bytes using reverseRecOn with
  | nil => simp
  | append_singleton bytes b ih =>
    rw [foldl_concat, ih, ofBeBytes_concat, length_append, length_singleton,
      pow_succ]
    ring

theorem ofBeBytes_cons (b : UInt8) (bytes : List UInt8) :
    ofBeBytes (b :: bytes) = b.toNat * 256 ^ bytes.length + ofBeBytes bytes := by
  rw [ofBeBytes, foldl_cons, foldl_bytes, Nat.zero_mul, Nat.zero_add]

theorem toNat_ushiftRight_six (b : UInt8) : (b >>> 6).toNat = b.toNat / 64 := by
  rw [UInt8.toNat_shiftRight]
  simp [Nat.shiftRight_eq_div_pow]

theorem toNat_and_63 (b : UInt8) : (b &&& 0x3f).toNat = b.toNat % 64 := by
  rw [UInt8.toNat_and]
  exact Nat.and_two_pow_sub_one_eq_mod b.toNat 6

/-- The first byte carries the tag, and what is left of the bytes is the value. -/
theorem beBytes_tagged {width tag value : ℕ} (htag : tag < 4) (hwidth : 0 < width)
    (hvalue : value < 64 * 256 ^ (width - 1)) :
    ∃ first tail, beBytes width (tag * (64 * 256 ^ (width - 1)) + value) = first :: tail ∧
      tail.length = width - 1 ∧ first.toNat / 64 = tag ∧
      first.toNat % 64 * 256 ^ (width - 1) + ofBeBytes tail = value := by
  have hlength := length_beBytes width (tag * (64 * 256 ^ (width - 1)) + value)
  have hof := ofBeBytes_beBytes width (tag * (64 * 256 ^ (width - 1)) + value)
  cases hbytes : beBytes width (tag * (64 * 256 ^ (width - 1)) + value) with
  | nil => rw [hbytes, length_nil] at hlength; omega
  | cons first tail =>
    rw [hbytes, length_cons] at hlength
    have htail : tail.length = width - 1 := by omega
    have hpow : 256 ^ width = 256 * 256 ^ (width - 1) := by
      rw [← pow_succ', Nat.sub_add_cancel hwidth]
    have hfull : tag * (64 * 256 ^ (width - 1)) + value < 256 ^ width := by
      rw [hpow]
      nlinarith [Nat.mul_le_mul_right (64 * 256 ^ (width - 1)) (Nat.le_of_lt_succ htag)]
    have hlast := ofBeBytes_lt tail
    rw [hbytes, ofBeBytes_cons, Nat.mod_eq_of_lt hfull, htail] at hof
    rw [htail] at hlast
    generalize 256 ^ (width - 1) = p at *
    -- Both sides are split at the last `width - 1` bytes.
    have hdiv : first.toNat = tag * 64 + value / p := by
      have hp : 0 < p := by omega
      have hleft : (first.toNat * p + ofBeBytes tail) / p = first.toNat := by
        rw [Nat.mul_comm, Nat.mul_add_div hp, Nat.div_eq_of_lt hlast, Nat.add_zero]
      have hright : (tag * (64 * p) + value) / p = tag * 64 + value / p := by
        rw [← Nat.mul_assoc, Nat.mul_comm _ p, Nat.mul_add_div hp]
      rw [← hleft, hof, hright]
    have hquot : value / p < 64 := Nat.div_lt_of_lt_mul (by rw [Nat.mul_comm]; exact hvalue)
    have htop : first.toNat / 64 = tag ∧ first.toNat % 64 = value / p := by
      rw [hdiv]
      generalize value / p = q at hquot
      omega
    refine ⟨first, tail, rfl, htail, htop.1, ?_⟩
    rw [htop.2]
    rw [hdiv] at hof
    nlinarith

theorem quicVarintEncodedLen_pos : 0 < quicVarintEncodedLen value := by
  unfold quicVarintEncodedLen
  split_ifs <;> decide

theorem decodeQuicVarint_encode {value : ℕ} (h : value < 2 ^ 62) (rest : List UInt8) :
    decodeQuicVarint (encodeQuicVarint value ++ rest) =
      .ok (value, quicVarintEncodedLen value) := by
  obtain ⟨hlt, hencode⟩ := encodeQuicVarint_eq h
  obtain ⟨first, tail, hbytes, htail, htag, hvalue⟩ :=
    beBytes_tagged (varintTag_lt value) (quicVarintEncodedLen_pos value) hlt
  have hwidth : 1 <<< (first >>> 6).toNat = quicVarintEncodedLen value := by
    rw [toNat_ushiftRight_six, htag, quicVarintEncodedLen_eq]
  have hpos := quicVarintEncodedLen_pos value
  have hread : ((first :: tail ++ rest).take (quicVarintEncodedLen value)).drop 1 = tail := by
    rw [take_append_of_le_length (by rw [length_cons]; omega),
      take_of_length_le (by rw [length_cons]; omega)]
    rfl
  rw [hencode, hbytes]
  simp only [decodeQuicVarint, cons_append, head?_cons, hwidth]
  rw [← cons_append, hread, foldl_bytes, toNat_and_63, htail, hvalue]
  have hroom : quicVarintEncodedLen value ≤ (first :: tail ++ rest).length := by
    rw [length_append, length_cons]
    omega
  rw [require, if_pos hroom]
  rw [← quicVarintEncodedLen, require, if_pos rfl]
  rfl

theorem one_shiftLeft_injective {a b : ℕ} (h : 1 <<< a = 1 <<< b) : a = b := by
  rw [Nat.one_shiftLeft, Nat.one_shiftLeft] at h
  exact Nat.pow_right_injective (le_refl 2) h

/-- What was read is the canonical form of a value below `2 ^ 62`. -/
theorem decodeQuicVarint_ok {bytes : List UInt8} {value width : ℕ}
    (h : decodeQuicVarint bytes = .ok (value, width)) :
    value < 2 ^ 62 ∧ width = quicVarintEncodedLen value ∧
      bytes = encodeQuicVarint value ++ bytes.drop width := by
  cases bytes with
  | nil => cases h
  | cons first rest =>
    simp only [decodeQuicVarint, head?_cons, bind_eq_ok, require_eq_ok, pure_eq_ok,
      Prod.mk.injEq] at h
    obtain ⟨_, hroom, _, hminimal, hvalue, hwidth⟩ := h
    rw [hvalue] at hminimal
    rw [hwidth] at hroom hvalue hminimal
    change width = quicVarintEncodedLen value at hminimal
    have htag : (first >>> 6).toNat = varintTag value := by
      rw [hminimal, quicVarintEncodedLen_eq] at hwidth
      exact one_shiftLeft_injective hwidth
    obtain ⟨w, rfl⟩ : ∃ w, width = w + 1 :=
      ⟨width - 1, by have := quicVarintEncodedLen_pos value; omega⟩
    rw [take_succ_cons, drop_succ_cons, drop_zero, foldl_bytes,
      toNat_and_63] at hvalue
    rw [toNat_ushiftRight_six] at htag
    have htail : (rest.take w).length = w := length_take_of_le (by simpa using hroom)
    rw [htail] at hvalue
    have hlast := ofBeBytes_lt (rest.take w)
    rw [htail] at hlast
    have hlt : value < 64 * 256 ^ w := by
      have hmod : first.toNat % 64 < 64 := Nat.mod_lt _ (by decide)
      nlinarith [Nat.mul_le_mul_right (256 ^ w) (Nat.le_of_lt_succ hmod)]
    have hw : w ≤ 7 := by
      have : quicVarintEncodedLen value ≤ 8 := by
        unfold quicVarintEncodedLen
        split_ifs <;> decide
      omega
    have h62 : value < 2 ^ 62 := by
      calc value < 64 * 256 ^ w := hlt
        _ ≤ 64 * 256 ^ 7 := Nat.mul_le_mul_left _ (Nat.pow_le_pow_right (by decide) hw)
        _ = 2 ^ 62 := by norm_num
    refine ⟨h62, hminimal, ?_⟩
    have hbytes : ofBeBytes (first :: rest.take w) =
        varintTag value * (64 * 256 ^ w) + value := by
      rw [ofBeBytes_cons, htail, ← htag, ← hvalue]
      nlinarith [Nat.div_add_mod first.toNat 64]
    have hencode := (encodeQuicVarint_eq h62).2
    rw [← hminimal, Nat.add_sub_cancel, ← hbytes] at hencode
    have hself := beBytes_ofBeBytes (first :: rest.take w)
    rw [length_cons, htail] at hself
    rw [hencode, hself, drop_succ_cons, cons_append, take_append_drop]

theorem length_encodeQuicVarint {value : ℕ} (h : value < 2 ^ 62) :
    (encodeQuicVarint value).length = quicVarintEncodedLen value := by
  rw [(encodeQuicVarint_eq h).2, length_beBytes]

/-! ### Length-prefixed byte strings -/

def encodeVarBytes : List UInt8 := encodeQuicVarint bytes.length ++ bytes

def encodeComponentVectors (parts : List (List UInt8)) : List UInt8 := parts.flatMap encodeVarBytes

/-- Read one byte string of at most `maxLen` bytes off the cursor. -/
def decodeVarBytes (cursor : List UInt8) (maxLen : ℕ) (label : String) :
    Except String (List UInt8 × List UInt8) := do
  let (len, prefixLen) ← (decodeQuicVarint cursor).mapError fun e =>
    label ++ " length decode failed: " ++ e
  require (len ≤ maxLen) (label ++ " exceeds maximum length")
  require (prefixLen + len ≤ cursor.length) (label ++ " is truncated")
  pure ((cursor.take (prefixLen + len)).drop prefixLen, cursor.drop (prefixLen + len))

/-- Reading a byte string succeeds exactly on its encoding. -/
theorem decodeVarBytes_eq_ok {cursor bytes rest : List UInt8} {maxLen : ℕ} {label : String}
    (hmax : maxLen < 2 ^ 62) :
    decodeVarBytes cursor maxLen label = .ok (bytes, rest) ↔
      cursor = encodeVarBytes bytes ++ rest ∧ bytes.length ≤ maxLen := by
  simp only [decodeVarBytes, bind_eq_ok, mapError_eq_ok, require_eq_ok, pure_eq_ok, Prod.exists,
    Prod.mk.injEq]
  constructor
  · rintro ⟨len, width, hread, _, hlen, _, hroom, rfl, rfl⟩
    obtain ⟨_, hwidth, hcursor⟩ := decodeQuicVarint_ok hread
    have hlength : ((cursor.take (width + len)).drop width).length = len := by
      rw [length_drop, length_take_of_le hroom, Nat.add_sub_cancel_left]
    refine ⟨?_, hlength.trans_le hlen⟩
    rw [encodeVarBytes, hlength, append_assoc]
    nth_rewrite 1 [hcursor]
    rw [drop_take, Nat.add_sub_cancel_left, ← drop_drop, take_append_drop]
  · rintro ⟨rfl, hlen⟩
    have h62 : bytes.length < 2 ^ 62 := lt_of_le_of_lt hlen hmax
    have hwidth := length_encodeQuicVarint h62
    refine ⟨bytes.length, quicVarintEncodedLen bytes.length, ?_, (), hlen, (), ?_, ?_, ?_⟩
    · rw [encodeVarBytes, append_assoc, decodeQuicVarint_encode h62]
    · rw [encodeVarBytes, length_append, length_append, hwidth]
      omega
    · rw [encodeVarBytes, ← hwidth, ← length_append, take_left', drop_left']
      · rfl
      · rfl
    · rw [encodeVarBytes, ← hwidth, ← length_append, drop_left']
      rfl

theorem length_encodeVarBytes {bytes : List UInt8} (h : bytes.length < 2 ^ 62) :
    (encodeVarBytes bytes).length = quicVarintEncodedLen bytes.length + bytes.length := by
  rw [encodeVarBytes, length_append, length_encodeQuicVarint h]

/-- A byte string of fewer than `2 ^ 14` bytes has a length of at most two. -/
theorem length_encodeVarBytes_le {bytes : List UInt8} {maxLen : ℕ} (hmax : maxLen < 16384)
    (h : bytes.length ≤ maxLen) : (encodeVarBytes bytes).length ≤ maxLen + 2 := by
  rw [length_encodeVarBytes (by omega), quicVarintEncodedLen]
  split_ifs
  all_goals omega

theorem encodeVarBytes_ne_nil : encodeVarBytes bytes ≠ [] := by
  refine append_ne_nil_of_left_ne_nil ?_ _
  rw [← length_pos_iff, encodeQuicVarint]
  split_ifs
  all_goals
    rw [length_beBytes]
    decide

end Mdk
