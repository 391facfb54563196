/-
Loops that repeat a pass until it makes no progress.

`loop pass fuel s` is the loop `s := pass s` until the pass reports that it did
nothing, cut off after `fuel` rounds.

* `loop_invariant` — what every pass keeps, the loop keeps;
* `loop_fixed` — if every pass that makes progress lowers a measure, a fuel above
  the measure is never used up: the loop ends in a state where the pass is idle.
-/
import Mathlib.Logic.Basic

namespace Progress

variable {σ : Type*}

/-- Repeat `pass` until it reports no progress, `fuel` times at most. -/
def loop (pass : σ → σ × Bool) : Nat → σ → σ
  | 0, s => s
  | fuel + 1, s => if (pass s).2 then loop pass fuel (pass s).1 else (pass s).1

variable {pass : σ → σ × Bool}

theorem loop_invariant {I : σ → Prop} (hpass : ∀ s, I s → I (pass s).1) (fuel : Nat) {s : σ}
    (hs : I s) : I (loop pass fuel s) := by
  induction fuel generalizing s with
  | zero => exact hs
  | succ fuel ih =>
    rw [loop]
    by_cases h : (pass s).2 = true
    · rw [if_pos h]
      exact ih (hpass s hs)
    · rw [if_neg h]
      exact hpass s hs

/-- The fuel is a bound, not a cut: above the measure the loop ends idle. -/
theorem loop_fixed {μ : σ → Nat} (hprogress : ∀ s, (pass s).2 = true → μ (pass s).1 < μ s)
    (hidle : ∀ s, (pass s).2 = false → (pass s).1 = s) {fuel : Nat} {s : σ} (h : μ s < fuel) :
    pass (loop pass fuel s) = (loop pass fuel s, false) := by
  induction fuel generalizing s with
  | zero => omega
  | succ fuel ih =>
    rw [loop]
    by_cases hs : (pass s).2 = true
    · rw [if_pos hs]
      have := hprogress s hs
      exact ih (by omega)
    · rw [if_neg hs]
      rw [Bool.not_eq_true] at hs
      have hsame := hidle s hs
      rw [hsame]
      exact Prod.ext hsame hs

end Progress
