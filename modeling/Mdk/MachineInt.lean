/-
Saturating arithmetic on 64-bit unsigned integers.

`saturatingSub` and `saturatingAdd` are the clamped operations; both are
determined by their value as natural numbers (`toNat_saturatingSub`,
`toNat_saturatingAdd`), which is how arithmetic about them reaches `omega`.
-/
import Mathlib

namespace UInt64

variable (a b : UInt64)

/-- Subtraction clamped at `0`. -/
def saturatingSub : UInt64 := if b ≤ a then a - b else 0

/-- Addition clamped at `2 ^ 64 - 1`. -/
def saturatingAdd : UInt64 :=
  if a.toNat + b.toNat < 2 ^ 64 then a + b else UInt64.ofNat (2 ^ 64 - 1)

theorem toNat_saturatingSub : (a.saturatingSub b).toNat = a.toNat - b.toNat := by
  rw [saturatingSub]
  by_cases h : b ≤ a
  · rw [if_pos h, UInt64.toNat_sub_of_le _ _ h]
  · rw [if_neg h]
    rw [UInt64.le_iff_toNat_le] at h
    have hzero : a.toNat - b.toNat = 0 := by omega
    rw [hzero]
    rfl

theorem toNat_saturatingAdd : (a.saturatingAdd b).toNat = min (a.toNat + b.toNat) (2 ^ 64 - 1) := by
  rw [saturatingAdd]
  by_cases h : a.toNat + b.toNat < 2 ^ 64
  · rw [if_pos h, UInt64.toNat_add, Nat.mod_eq_of_lt h]
    omega
  · rw [if_neg h]
    have hmin : min (a.toNat + b.toNat) (2 ^ 64 - 1) = 2 ^ 64 - 1 := by omega
    rw [hmin]
    rfl

end UInt64
