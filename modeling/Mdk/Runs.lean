/-
Runs of a deterministic step function, and what a run can be relied on for.

A run is a list of events folded through `step`.  `Guarded step guard s es`
says that every event of the run meets `guard` in the state it is taken from;
the guard is where a caller's obligations live.  The later files use three rules:

* `Guarded.invariant` — an invariant kept by every guarded step holds in the
  state a guarded run ends in;
* `Guarded.split` — a guarded run splits at any point into two guarded runs,
  so the first rule also speaks about every state on the way;
* `guarded_iff` — if a step that is not guarded breaks a property at once, the
  guarded runs are those that have it all the way.
-/
import Mathlib.Logic.Basic

namespace Runs

variable {σ ε : Type*}

/-- Every event of the run meets `guard` in the state it is taken from. -/
def Guarded (step : σ → ε → σ) (guard : σ → ε → Prop) : σ → List ε → Prop
  | _, [] => True
  | s, e :: es => guard s e ∧ Guarded step guard (step s e) es

instance Guarded.decidable (step : σ → ε → σ) (guard : σ → ε → Prop)
    [∀ s e, Decidable (guard s e)] : ∀ s es, Decidable (Guarded step guard s es)
  | _, [] => .isTrue trivial
  | s, e :: es =>
    have := Guarded.decidable step guard (step s e) es
    inferInstanceAs (Decidable (guard s e ∧ Guarded step guard (step s e) es))

variable {step : σ → ε → σ} {guard : σ → ε → Prop}

theorem Guarded.split {s : σ} {es₁ es₂ : List ε} (h : Guarded step guard s (es₁ ++ es₂)) :
    Guarded step guard s es₁ ∧ Guarded step guard (es₁.foldl step s) es₂ := by
  induction es₁ generalizing s with
  | nil => exact ⟨trivial, h⟩
  | cons e es₁ ih =>
    obtain ⟨he, hrest⟩ := h
    obtain ⟨h₁, h₂⟩ := ih hrest
    exact ⟨⟨he, h₁⟩, h₂⟩

/-- **The invariant rule.**  What holds at the start and survives every guarded
step holds at the end of every guarded run. -/
theorem Guarded.invariant {I : σ → Prop}
    (hstep : ∀ s e, I s → guard s e → I (step s e)) {s : σ} {es : List ε}
    (hs : I s) (h : Guarded step guard s es) : I (es.foldl step s) := by
  induction es generalizing s with
  | nil => exact hs
  | cons e es ih =>
    obtain ⟨he, hrest⟩ := h
    exact ih (hstep s e hs he) hrest

/-- **The guard is exact** for what every guarded run has and no other step leaves standing. -/
theorem guarded_iff {I P : σ → Prop} (hstep : ∀ s e, I s → guard s e → I (step s e))
    (hholds : ∀ s, I s → P s) (hexact : ∀ s e, I s → P (step s e) → guard s e) {s : σ}
    {es : List ε} (hs : I s) :
    Guarded step guard s es ↔ ∀ before, before <+: es → P (before.foldl step s) := by
  induction es generalizing s with
  | nil =>
    refine ⟨fun _ before hbefore => ?_, fun _ => trivial⟩
    rw [List.prefix_nil.mp hbefore]
    exact hholds s hs
  | cons e es ih =>
    constructor
    · rintro ⟨he, hrest⟩ before hbefore
      cases before with
      | nil => exact hholds s hs
      | cons e' before =>
        obtain ⟨rfl, htail⟩ := List.cons_prefix_cons.mp hbefore
        exact (ih (hstep s e' hs he)).mp hrest before htail
    · intro h
      have he := hexact s e hs (h [e] (List.cons_prefix_cons.mpr ⟨rfl, List.nil_prefix⟩))
      refine ⟨he, (ih (hstep s e hs he)).mpr fun before hbefore => ?_⟩
      exact h (e :: before) (List.cons_prefix_cons.mpr ⟨rfl, hbefore⟩)

end Runs
