/-
Big-endian byte strings.

`beBytes w n` is the `w`-byte big-endian form of `n`, with the bytes above the
width dropped; `ofBeBytes` reads such a string back.

* `ofBeBytes_beBytes`, `beBytes_ofBeBytes` — the two are inverse up to the width;
* `beBytes_injective` — below `256 ^ w` a number is determined by its bytes.
-/
import Mathlib

/-- The bytes of an ASCII text. -/
def asciiBytes (text : String) : List UInt8 := text.toList.map fun c => UInt8.ofNat c.toNat

/-- The `width` low bytes of `n`, most significant first. -/
def beBytes : ℕ → ℕ → List UInt8
  | 0, _ => []
  | width + 1, n => beBytes width (n / 256) ++ [UInt8.ofNat n]

variable (bytes : List UInt8)

/-- The number a big-endian byte string stands for. -/
def ofBeBytes : ℕ := bytes.foldl (fun acc b => acc * 256 + b.toNat) 0

@[simp] theorem length_beBytes (width n : ℕ) : (beBytes width n).length = width := by
  induction width generalizing n with
  | zero => rfl
  | succ width ih => rw [beBytes, List.length_append, ih, List.length_singleton]

@[simp] theorem ofBeBytes_nil : ofBeBytes [] = 0 := rfl

@[simp] theorem ofBeBytes_concat (b : UInt8) :
    ofBeBytes (bytes ++ [b]) = ofBeBytes bytes * 256 + b.toNat := by
  simp only [ofBeBytes, List.foldl_append, List.foldl_cons, List.foldl_nil]

theorem ofBeBytes_beBytes (width n : ℕ) : ofBeBytes (beBytes width n) = n % 256 ^ width := by
  induction width generalizing n with
  | zero => rw [beBytes, ofBeBytes_nil, pow_zero, Nat.mod_one]
  | succ width ih =>
    have hmod : n % 256 ^ (width + 1) = n % 256 + 256 * (n / 256 % 256 ^ width) := by
      rw [pow_succ', Nat.mod_mul]
    rw [beBytes, ofBeBytes_concat, ih, UInt8.toNat_ofNat', hmod]
    omega

theorem beBytes_ofBeBytes : beBytes bytes.length (ofBeBytes bytes) = bytes := by
  induction bytes using List.reverseRecOn with
  | nil => rfl
  | append_singleton bytes b ih =>
    have hb : b.toNat < 256 := b.toNat_lt
    have hdiv : (ofBeBytes bytes * 256 + b.toNat) / 256 = ofBeBytes bytes := by omega
    have hlast : UInt8.ofNat (ofBeBytes bytes * 256 + b.toNat) = b := by
      rw [← UInt8.toNat_inj, UInt8.toNat_ofNat']
      omega
    rw [List.length_append, List.length_singleton, beBytes, ofBeBytes_concat, hdiv, ih, hlast]

theorem ofBeBytes_lt : ofBeBytes bytes < 256 ^ bytes.length := by
  have h := ofBeBytes_beBytes bytes.length (ofBeBytes bytes)
  rw [beBytes_ofBeBytes] at h
  rw [h]
  exact Nat.mod_lt _ (by positivity)

theorem beBytes_injective {width n n' : ℕ} (hn : n < 256 ^ width) (hn' : n' < 256 ^ width)
    (h : beBytes width n = beBytes width n') : n = n' := by
  have hof := congrArg ofBeBytes h
  rwa [ofBeBytes_beBytes, ofBeBytes_beBytes, Nat.mod_eq_of_lt hn, Nat.mod_eq_of_lt hn'] at hof

/-- The low bytes of a wide form are the narrow form. -/
theorem drop_beBytes (k width n : ℕ) : (beBytes (k + width) n).drop k = beBytes width n := by
  induction width generalizing n with
  | zero => exact List.drop_of_length_le (length_beBytes _ _).le
  | succ width ih =>
    rw [← Nat.add_assoc, beBytes, List.drop_append_of_le_length, ih, beBytes]
    rw [length_beBytes]
    exact Nat.le_add_right k width
